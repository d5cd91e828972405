import FissionCli.Types

/-! The archive builder of the package commands: `createArchive`, `makeArchiveFileIfNeeded`,
`archiveName` and, from `cmd/package`, `UploadArchive` with the calls it makes. What these
reach outside the repository (the filesystem, the storage service, randomness, and constants
of packages not in the source) is a `Host` they are run against; the host keeps no state, so
what the storage service must do for an uploaded file to come back is a hypothesis,
`StorageServes`, assumed only where a result needs it.

An archive made without a spec file is `UploadArchive`'s record of one local file, the one
`makeArchiveFileIfNeeded` makes or picks from the inputs (`LocalArchiveFile`): literal under the
size limit, otherwise the storage service's URL for its upload with the checksum of its bytes
(`Uploaded`). When a step of that upload fails, no archive is made at all. -/

namespace FissionCli

/-- `spec.ArchiveUploadSpec`: a recorded intent to build an archive from globs. -/
structure ArchiveUploadSpec where
  name : String
  includeGlobs : List String
  deriving DecidableEq, Repr

/-- The world outside the repository; each fallible call answers with Go's error text. -/
structure Host where
  /-- `c.GlobalString("server")`. -/
  serverUrl : String
  findAllGlobs : List String → Except String (List String)
  stat : String → Except String Unit
  fileSize : String → Except String Nat
  readFile : String → Except String (List UInt8)
  /-- `os.Open` of `FileChecksum`. -/
  openFile : String → Except String Unit
  zipMatch : String → Bool
  getTempDir : Except String String
  mkdir : String → Except String Unit
  create : String → Except String Unit
  copyTo : String → List UInt8 → Except String Unit
  chmod : String → Except String Unit
  rename : String → String → Except String Unit
  makeArchive : String → List String → Except String String
  filepathJoin : String → String → String
  kubifyName : String → String
  /-- `uniuri.NewLen`. -/
  newLen : Nat → String
  /-- `uuid.NewV4().String()`. -/
  newUuid : String
  /-- `url.ParseRequestURI(u).RequestURI()`, `none` when `u` does not parse. -/
  parseRequestURI : String → Option String
  /-- `http.Get`: status code and body. -/
  httpGet : String → Except String (Nat × List UInt8)
  /-- `storageSvcClient.MakeClient(base).Upload`: the file's id. -/
  upload : String → String → Except String String
  getSvcURL : String → Except String String
  /-- `storageSvcClient.MakeClient(base).GetUrl(id)`. -/
  getUrl : String → String → String
  /-- `hex.EncodeToString` of the SHA-256 sum. -/
  sha256Hex : List UInt8 → String
  readSpecs : String → Except String (List ArchiveUploadSpec)
  specSave : ArchiveUploadSpec → String → Except String Unit
  /-- The packages `spec.ReadSpecs` finds in a spec directory. -/
  readPackageSpecs : String → Except String (List Package)
  /-- `spec.SpecSave` of a package. -/
  packageSpecSave : Package → String → Except String Unit
  /-- `cmdutils.GetSpecDir` of the command's flags. -/
  specDir : String
  /-- `path.Base`. -/
  pathBase : String → String
  /-- `types.ArchiveLiteralSizeLimit`. -/
  archiveLiteralSizeLimit : Nat
  /-- `spec.ARCHIVE_URL_PREFIX`. -/
  archiveUrlPrefix : String
  /-- `fv1.ChecksumTypeSHA256`. -/
  checksumTypeSHA256 : String
  deriving Inhabited

namespace Archive

variable (host : Host)

def isHttpUrl (path : String) : Bool := hasPrefix path "http://" || hasPrefix path "https://"

/-- `strings.TrimSuffix`. -/
def trimSuffix (s suffix : String) : String :=
  if suffix.data.isSuffixOf s.data then ⟨s.data.take (s.length - suffix.length)⟩ else s

def archiveName (givenNameHint : String) (includedFiles : List String) : String :=
  if givenNameHint.length > 0 then givenNameHint ++ "-" ++ host.newLen 4
  else match includedFiles with
    | [] => host.newLen 8
    | first :: _ => host.kubifyName first ++ "-" ++ host.newLen 4

def missingFilesError (path : String) : String :=
  "Error finding any files with path \"" ++ path ++ "\""

/-- The glob-check loop of `createArchive`: one error per unmatched non-URL input, in order. -/
def checkFiles : List String → Except Fatal (List String)
  | [] => pure []
  | path :: rest =>
    if isHttpUrl path then checkFiles rest
    else do
      let files ← checkErr "finding all globs" (host.findAllGlobs [path])
      let errs ← checkFiles rest
      pure (if files.length = 0 then missingFilesError path :: errs else errs)

def makeArchiveFileIfNeeded (archiveNameHint : String) (archiveInput : List String)
    (noZip : Bool) : Except Fatal String := do
  let archiveName := archiveName host archiveNameHint archiveInput
  let files ← checkErr "finding all globs" (host.findAllGlobs archiveInput)
  let single ← match files with
    | [file] => do
      checkErr ("open input file " ++ file) (host.stat file)
      pure (if host.zipMatch file || noZip || isHttpUrl file then some file else none)
    | _ => pure none
  match single with
  | some file => pure file
  | none => do
    let tmpDir ← checkErr "create temporary archive directory" host.getTempDir
    checkErr "create archive file" (host.makeArchive (host.filepathJoin tmpDir archiveName) archiveInput)

def downloadURL (fileUrl : String) : Except String (List UInt8) := do
  let (status, body) ← host.httpGet fileUrl
  if status = 200 then pure body
  else throw (toString status ++ " - HTTP response returned non 200 status")

/-- `WriteArchiveToFile` for a reader that is there. -/
def writeArchiveToFile (fileName : String) (contents : List UInt8) : Except String Unit := do
  let tmpDir ← host.getTempDir
  let path := host.filepathJoin tmpDir (fileName ++ ".tmp")
  host.create path
  host.copyTo path contents
  host.chmod path
  host.rename path fileName

def downloadToTempFile (fileUrl : String) : Except Fatal String := do
  let contents ← checkErr ("download from url: " ++ fileUrl) (downloadURL host fileUrl)
  let tmpDir ← checkErr "create temp directory" host.getTempDir
  let destination := host.filepathJoin tmpDir host.newUuid
  checkErr "create temp directory" (host.mkdir tmpDir)
  checkErr "write archive to file" (writeArchiveToFile host destination contents)
  pure destination

def fileChecksum (fileName : String) : Except String Checksum := do
  match host.openFile fileName with
  | .error e => throw ("failed to open file " ++ fileName ++ ": " ++ e)
  | .ok () => match host.readFile fileName with
    | .error _ => throw ("failed to calculate checksum for " ++ fileName)
    | .ok bytes => pure ⟨host.checksumTypeSHA256, host.sha256Hex bytes⟩

/-- The file `UploadArchive` works on: a URL is downloaded to a temporary file first. -/
def localFile (fileName : String) : Except Fatal String :=
  if isHttpUrl fileName then downloadToTempFile host fileName else pure fileName

def uploadArchive (fileName : String) : Except Fatal Archive := do
  let fileName ← localFile host fileName
  let size ← checkErr ("stat " ++ fileName) (host.fileSize fileName)
  if size < host.archiveLiteralSizeLimit then do
    let contents ← checkErr ("read " ++ fileName) (host.readFile fileName)
    pure { Archive.empty with type := .literal, literal := contents }
  else do
    let u := trimSuffix host.serverUrl "/" ++ "/proxy/storage"
    let id ← checkErr ("upload file " ++ fileName) (host.upload u fileName)
    let storageSvc ← checkErr "get fission storage service name"
      (host.getSvcURL "application=fission-storage")
    let archiveURL := host.getUrl ("http://" ++ storageSvc) id
    let csum ← checkErr ("calculate checksum for file " ++ fileName) (fileChecksum host fileName)
    pure { Archive.empty with type := .url, url := archiveURL, checksum := csum }

/-- `SpecExists` with `compareMetadata = false`, as the spec describes it. -/
def specExists (registry : List ArchiveUploadSpec) (aus : ArchiveUploadSpec) :
    Option ArchiveUploadSpec :=
  registry.find? (·.includeGlobs = aus.includeGlobs)

def checkInputs (includeFiles : List String) : Except Fatal Unit := do
  let errs ← checkFiles host includeFiles
  if errs.length > 0 then throw (.errors errs) else pure ()

def specName (fr : List ArchiveUploadSpec) (aus : ArchiveUploadSpec) (specFile : String) :
    Except Fatal String :=
  match specExists fr aus with
  | some m => pure m.name
  | none => do
    checkErr ("write spec file " ++ specFile) (host.specSave aus specFile)
    pure aus.name

/-- The archive of `createArchive` when a spec file is named: a reference to its upload spec. -/
def specArchive (includeFiles : List String) (specDir specFile : String) : Except Fatal Archive := do
  let aus : ArchiveUploadSpec := ⟨archiveName host "" includeFiles, includeFiles⟩
  let fr ← checkErr "read specs" (host.readSpecs specDir)
  let name ← specName host fr aus specFile
  pure { Archive.empty with type := .url, url := host.archiveUrlPrefix ++ name }

def createArchive (includeFiles : List String) (noZip : Bool) (specDir specFile : String) :
    Except Fatal Archive := do
  checkInputs host includeFiles
  if specFile.length > 0 then specArchive host includeFiles specDir specFile
  else do
    let archivePath ← makeArchiveFileIfNeeded host "" includeFiles noZip
    uploadArchive host archivePath

/-- An archive holds literal bytes or a URL, as its type says, never both. -/
def WellFormed (a : Archive) : Prop :=
  (a.type = .literal ∧ a.url = "" ∧ a.checksum = ⟨"", ""⟩) ∨ (a.type = .url ∧ a.literal = [])

/-- The local file `createArchive` uploads for `files`. -/
def LocalArchiveFile (files : List String) (noZip : Bool) (path : String) : Prop :=
  ∃ archivePath, makeArchiveFileIfNeeded host "" files noZip = .ok archivePath ∧
    localFile host archivePath = .ok path

/-- The archive `UploadArchive` records for the local file `path`. -/
def Uploaded (path : String) (a : Archive) : Prop :=
  ∃ size bytes, host.fileSize path = .ok size ∧ host.readFile path = .ok bytes ∧
    if size < host.archiveLiteralSizeLimit then a = { Archive.empty with type := .literal, literal := bytes }
    else ∃ id svc, host.upload (trimSuffix host.serverUrl "/" ++ "/proxy/storage") path = .ok id ∧
      host.getSvcURL "application=fission-storage" = .ok svc ∧
      a = { Archive.empty with
        type := .url, url := host.getUrl ("http://" ++ svc) id,
        checksum := ⟨host.checksumTypeSHA256, host.sha256Hex bytes⟩ }

/-- A step of `UploadArchive`'s storage branch fails for the file `path`. -/
def StorageStepFails (path : String) : Prop :=
  (∃ e, host.upload (trimSuffix host.serverUrl "/" ++ "/proxy/storage") path = .error e) ∨
    (∃ e, host.getSvcURL "application=fission-storage" = .error e) ∨ ∃ e, fileChecksum host path = .error e

/-- The storage service, outside the repository, serves an uploaded file's bytes back through the
controller's proxy at the URL `GetUrl` gives for it. -/
def StorageServes : Prop :=
  ∀ path id svc bytes, host.upload (trimSuffix host.serverUrl "/" ++ "/proxy/storage") path = .ok id →
    host.getSvcURL "application=fission-storage" = .ok svc → host.readFile path = .ok bytes →
    ∃ requestURI, host.parseRequestURI (host.getUrl ("http://" ++ svc) id) = some requestURI ∧
      host.httpGet (trimSuffix host.serverUrl "/" ++ "/proxy/storage/" ++ requestURI) = .ok (200, bytes)

theorem WellFormed.typed {a : Archive} (wellFormed : a.WellFormed) : a.type = .literal ∨ a.type = .url :=
  wellFormed.imp (·.1) (·.1)

theorem fileChecksum_ok {fileName : String} {csum : Checksum}
    (ok : fileChecksum host fileName = .ok csum) :
    ∃ bytes, host.readFile fileName = .ok bytes ∧ csum = ⟨host.checksumTypeSHA256, host.sha256Hex bytes⟩ := by
  unfold fileChecksum at ok
  split at ok
  · cases ok
  · split at ok
    · cases ok
    · next bytes read =>
      cases ok
      exact ⟨bytes, read, rfl⟩

theorem uploadArchive_uploaded {fileName : String} {a : Archive} (ok : uploadArchive host fileName = .ok a) :
    ∃ path, localFile host fileName = .ok path ∧ Uploaded host path a := by
  simp only [uploadArchive, bind_eq_ok] at ok
  obtain ⟨path, located, size, sized, made⟩ := ok
  refine ⟨path, located, ?_⟩
  split at made
  · next small =>
    obtain ⟨contents, read, made⟩ := bind_eq_ok.mp made
    cases made
    exact ⟨size, contents, by simpa using sized, by simpa using read, by rw [if_pos small]⟩
  · next large =>
    simp only [bind_eq_ok] at made
    obtain ⟨id, uploaded, svc, found, csum, summed, made⟩ := made
    cases made
    obtain ⟨bytes, read, rfl⟩ := fileChecksum_ok host (by simpa using summed)
    exact ⟨size, bytes, by simpa using sized, read, by
      rw [if_neg large]; exact ⟨id, svc, by simpa using uploaded, by simpa using found, rfl⟩⟩

theorem Uploaded.wellFormed {path : String} {a : Archive} (uploaded : Uploaded host path a) : a.WellFormed := by
  obtain ⟨size, bytes, -, -, made⟩ := uploaded
  split at made
  · subst made
    exact .inl ⟨rfl, rfl, rfl⟩
  · obtain ⟨id, svc, -, -, rfl⟩ := made
    exact .inr ⟨rfl, rfl⟩

/-- A failed storage step of a file too large to keep literal leaves no archive. -/
theorem uploadArchive_fails {fileName path : String} {size : Nat} (located : localFile host fileName = .ok path)
    (sized : host.fileSize path = .ok size) (large : host.archiveLiteralSizeLimit ≤ size)
    (fails : StorageStepFails host path) (a : Archive) : uploadArchive host fileName ≠ .ok a := by
  intro ok
  simp only [uploadArchive, bind_eq_ok, located, ok_bind, sized, checkErr_ok] at ok
  rw [if_neg (Nat.not_lt.mpr large)] at ok
  simp only [bind_eq_ok, checkErr_eq_ok] at ok
  obtain ⟨id, uploaded, svc, found, csum, summed, -⟩ := ok
  rcases fails with ⟨e, failed⟩ | ⟨e, failed⟩ | ⟨e, failed⟩
  · cases uploaded.symm.trans failed
  · cases found.symm.trans failed
  · cases summed.symm.trans failed

theorem checkInputs_ok {files : List String} (ok : checkInputs host files = .ok ()) :
    checkFiles host files = .ok [] := by
  obtain ⟨errs, checked, passed⟩ := bind_eq_ok.mp ok
  split at passed
  · cases passed
  · next none => rwa [List.length_eq_zero.mp (Nat.eq_zero_of_not_pos none)] at checked

theorem createArchive_direct {files : List String} {noZip : Bool} {specDir : String} {a : Archive}
    (ok : createArchive host files noZip specDir "" = .ok a) :
    checkFiles host files = .ok [] ∧ ∃ archivePath,
      makeArchiveFileIfNeeded host "" files noZip = .ok archivePath ∧ uploadArchive host archivePath = .ok a := by
  simp only [createArchive, bind_eq_ok] at ok
  obtain ⟨⟨⟩, checked, made⟩ := ok
  obtain ⟨archivePath, picked, uploaded⟩ := bind_eq_ok.mp made
  exact ⟨checkInputs_ok host checked, archivePath, picked, uploaded⟩

theorem createArchive_uploaded {files : List String} {noZip : Bool} {specDir : String} {a : Archive}
    (ok : createArchive host files noZip specDir "" = .ok a) :
    ∃ path, LocalArchiveFile host files noZip path ∧ Uploaded host path a := by
  obtain ⟨-, archivePath, picked, uploaded⟩ := createArchive_direct host ok
  obtain ⟨path, located, made⟩ := uploadArchive_uploaded host uploaded
  exact ⟨path, ⟨archivePath, picked, located⟩, made⟩

theorem createArchive_made_wellFormed {files : List String} {noZip : Bool} {specDir specFile : String}
    {a : Archive} (ok : createArchive host files noZip specDir specFile = .ok a) : a.WellFormed := by
  by_cases named : specFile = ""
  · obtain ⟨path, -, uploaded⟩ := createArchive_uploaded host (named ▸ ok)
    exact uploaded.wellFormed
  · simp only [createArchive, bind_eq_ok] at ok
    obtain ⟨-, -, made⟩ := ok
    rw [if_pos (Nat.pos_of_ne_zero fun zero => named ((length_eq_zero_iff _).mp zero))] at made
    simp only [specArchive, bind_eq_ok] at made
    obtain ⟨_, -, _, -, made⟩ := made
    cases made
    exact .inr ⟨rfl, rfl⟩

/-- When the upload of the file the inputs became fails, `createArchive` makes no archive. -/
theorem createArchive_fails {files : List String} {noZip : Bool} {archivePath : String}
    (picked : makeArchiveFileIfNeeded host "" files noZip = .ok archivePath)
    (fails : ∀ a, uploadArchive host archivePath ≠ .ok a) (a : Archive) :
    createArchive host files noZip "" "" ≠ .ok a := by
  intro ok
  obtain ⟨-, archivePath', picked', uploaded⟩ := createArchive_direct host ok
  cases picked.symm.trans picked'
  exact fails a uploaded

/-- The glob check lists every non-URL input whose glob matches no file, in order. -/
theorem checkFiles_lists_unmatched (paths : List String) (globs : String → List String)
    (globbed : ∀ path ∈ paths, isHttpUrl path = false → host.findAllGlobs [path] = .ok (globs path)) :
    checkFiles host paths =
      .ok ((paths.filter fun path => !isHttpUrl path && (globs path).isEmpty).map missingFilesError) := by
  induction paths with
  | nil => rfl
  | cons path rest ih =>
    have listed := ih fun p member => globbed p (List.mem_cons_of_mem path member)
    by_cases url : isHttpUrl path = true
    · simp [checkFiles, url, listed]
    · have found := globbed path (List.mem_cons_self path rest) (by simpa using url)
      cases files : globs path <;> simp [checkFiles, url, found, files, listed]

theorem createArchive_rejects_unmatched (paths : List String) (noZip : Bool) (specDir specFile : String)
    (globs : String → List String)
    (globbed : ∀ path ∈ paths, isHttpUrl path = false → host.findAllGlobs [path] = .ok (globs path))
    (unmatched : paths.filter (fun path => !isHttpUrl path && (globs path).isEmpty) ≠ []) :
    createArchive host paths noZip specDir specFile = .error (.errors
      ((paths.filter fun path => !isHttpUrl path && (globs path).isEmpty).map missingFilesError)) := by
  have listed := List.length_pos.mpr unmatched
  simp [createArchive, checkInputs, checkFiles_lists_unmatched host paths globs globbed, listed]

end Archive

/-- A host on which every path is one empty zip file, small enough to be kept literal. -/
def zipHost : Host :=
  { (default : Host) with
    findAllGlobs := fun globs => .ok globs
    stat := fun _ => .ok ()
    zipMatch := fun _ => true
    fileSize := fun _ => .ok 0
    readFile := fun _ => .ok []
    kubifyName := fun name => name
    archiveLiteralSizeLimit := 1 }

end FissionCli
