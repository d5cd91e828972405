import FissionCli.Store
import FissionCli.Archive

/-! `package getsrc` and `package getdeploy`: read the package, open a reader on one of its
archives, and copy it to standard output or to the output file. The reader is nil for an archive
of neither type and for a URL that does not parse; using a nil reader is a run-time panic, which
the model makes an outcome of its own. `package info`, the other reader of one package, is here
too. -/

namespace FissionCli.Get

open Archive

/-- How `pkgSourceGet` and `pkgDeployGet` end; `nilReader` is a use of a nil reader, a panic. -/
inductive GetResult where
  | stdout (contents : List UInt8)
  | file (fileName : String) (contents : List UInt8)
  | failed (err : Fatal)
  | nilReader
  deriving DecidableEq, Repr

variable (host : Host)

/-- The body behind a storage-service URL, or a nil reader when the URL does not parse. -/
def downloadStoragesvcURL (fileUrl : String) : Except Fatal (Option (List UInt8)) :=
  match host.parseRequestURI fileUrl with
  | none => pure none
  | some requestURI =>
    let fileDownloadUrl := trimSuffix host.serverUrl "/" ++ "/proxy/storage/" ++ requestURI
    some <$> checkErr ("download from storage service url: " ++ fileUrl)
      (downloadURL host fileDownloadUrl)

/-- The reader opened on an archive; nil for an archive of neither type. -/
def archiveReader (archive : Archive) : Except Fatal (Option (List UInt8)) :=
  if archive.type = .literal then pure (some archive.literal)
  else if archive.type = .url then downloadStoragesvcURL host archive.url
  else pure none

/-- The calls `WriteArchiveToFile` makes before it copies. -/
def startFile (fileName : String) : Except String Unit :=
  host.getTempDir >>= fun tmpDir => host.create (host.filepathJoin tmpDir (fileName ++ ".tmp"))

/-- `WriteArchiveToFile` handed a reader that may be nil. -/
def writeArchiveFrom (fileName : String) : Option (List UInt8) → GetResult
  | some contents =>
    match writeArchiveToFile host fileName contents with
    | .ok () => .file fileName contents
    | .error e => .failed (.returnedHost e)
  | none =>
    match startFile host fileName with
    | .ok () => .nilReader
    | .error e => .failed (.returnedHost e)

/-- `io.Copy(os.Stdout, reader)`. -/
def copyToStdout : Option (List UInt8) → GetResult
  | some contents => .stdout contents
  | none => .nilReader

/-- `pkgSourceGet` and `pkgDeployGet`, `pick` choosing the archive. -/
def getArchive (s : Store) (c : Context) (pick : PackageSpec → Archive) : GetResult :=
  let pkgName := c.string "name"
  if pkgName.length = 0 then .failed (.log "Need name of package, use --name")
  else
    let pkgNamespace := c.string "pkgNamespace"
    let output := c.string "output"
    match s.packageGet pkgName pkgNamespace with
    | .error e => .failed (.returned e)
    | .ok pkg =>
      match archiveReader host (pick pkg.spec) with
      | .error err => .failed err
      | .ok reader =>
        let result := if output.length > 0 then writeArchiveFrom host output reader
          else copyToStdout reader
        -- the deferred `readCloser.Close()` of a URL archive runs on the way out
        if (pick pkg.spec).type = .url ∧ reader = none then .nilReader else result

def pkgSourceGet (s : Store) (c : Context) : GetResult := getArchive host s c PackageSpec.source

def pkgDeployGet (s : Store) (c : Context) : GetResult := getArchive host s c PackageSpec.deployment

/-- The table `pkgInfo` prints, a row a line. -/
def infoTable (pkg : Package) : List (List String) :=
  [["Name:", pkg.metadata.name], ["Environment:", pkg.spec.environment.name],
    ["Status:", pkg.status.buildStatus.text], ["Build Logs:"], [pkg.status.buildLog]]

def pkgInfo (s : Store) (c : Context) : Except Fatal (List (List String)) := do
  let pkgName := c.string "name"
  if pkgName.length = 0 then throw (.log "Need name of package, use --name")
  let pkgNamespace := c.string "pkgNamespace"
  let pkg ← apiCheck ("find package " ++ pkgName) (s.packageGet pkgName pkgNamespace)
  pure (infoTable pkg)

theorem pkgInfo_found {s : Store} {c : Context} {pkg : Package} (named : c.string "name" ≠ "")
    (found : s.packageGet (c.string "name") (c.string "pkgNamespace") = .ok pkg) :
    pkgInfo s c = .ok (infoTable pkg) := by
  simp [pkgInfo, named, found]

@[simp] theorem infoTable_stamp (pkg : Package) (v : Nat) :
    infoTable (Resource.stamp pkg v) = infoTable pkg := rfl

theorem archiveReader_eq_none (archive : Archive) :
    archiveReader host archive = .ok none ↔
      archive.type = .unset ∨ (archive.type = .url ∧ host.parseRequestURI archive.url = none) := by
  rcases archive with ⟨_ | _ | _, literal, url, checksum⟩
  · simp [archiveReader]
  · simp [archiveReader]
  · cases parsed : host.parseRequestURI url <;> simp [archiveReader, downloadStoragesvcURL, parsed, map_eq_ok]

theorem getArchive_unset {s : Store} {c : Context} {pick : PackageSpec → Archive} {pkg : Package}
    (named : c.string "name" ≠ "")
    (found : s.packageGet (c.string "name") (c.string "pkgNamespace") = .ok pkg)
    (unset : (pick pkg.spec).type = .unset) (toStdout : c.string "output" = "") :
    getArchive host s c pick = .nilReader := by
  simp [getArchive, named, found, archiveReader, unset, toStdout, copyToStdout]

theorem getArchive_read {s : Store} {c : Context} {pick : PackageSpec → Archive} {pkg : Package}
    {bytes : List UInt8} (named : c.string "name" ≠ "")
    (found : s.packageGet (c.string "name") (c.string "pkgNamespace") = .ok pkg)
    (read : archiveReader host (pick pkg.spec) = .ok (some bytes)) (toStdout : c.string "output" = "") :
    getArchive host s c pick = .stdout bytes := by
  simp [getArchive, named, found, read, toStdout, copyToStdout]

/-- An uploaded archive reads back as the file's bytes, through the storage service if it serves them. -/
theorem archiveReader_uploaded {path : String} {a : Archive} {size : Nat} {bytes : List UInt8}
    (uploaded : Uploaded host path a) (sized : host.fileSize path = .ok size)
    (read : host.readFile path = .ok bytes) (served : size < host.archiveLiteralSizeLimit ∨ StorageServes host) :
    archiveReader host a = .ok (some bytes) := by
  obtain ⟨size', bytes', sized', read', made⟩ := uploaded
  cases sized.symm.trans sized'
  cases read.symm.trans read'
  split at made
  · subst made
    rfl
  · next large =>
    obtain ⟨id, svc, uploadedId, found, rfl⟩ := made
    obtain ⟨requestURI, parsed, fetched⟩ := (served.resolve_left large) path id svc bytes uploadedId found read
    simp [archiveReader, downloadStoragesvcURL, parsed, downloadURL, fetched]

/-- A host on which every file goes to a storage service that serves it back. -/
def servingHost : Host :=
  { zipHost with
    archiveLiteralSizeLimit := 0
    openFile := fun _ => .ok ()
    upload := fun _ path => .ok path
    getSvcURL := fun _ => .ok "storagesvc"
    getUrl := fun base id => base ++ "/v1/archive?id=" ++ id
    parseRequestURI := fun url => some url
    httpGet := fun _ => .ok (200, []) }

theorem servingHost_serves : StorageServes servingHost := by
  intro path id svc bytes _ _ read
  cases read
  exact ⟨_, rfl, rfl⟩

/-- A package built from a deployment archive only: its source archive is empty. -/
def deployOnlyPackage : Package :=
  ⟨⟨"hello", "default", 3⟩, ⟨⟨"python", "default"⟩, Archive.empty,
    { Archive.empty with type := .literal, literal := [80, 75] }, ""⟩, ⟨.succeeded, ""⟩⟩

def deployOnlyStore : Store := ⟨[deployOnlyPackage], [], 3, by decide, by decide⟩

theorem pkgSourceGet_deploy_only_uses_nil_reader :
    deployOnlyPackage.spec.source.type = .unset ∧
      pkgSourceGet default deployOnlyStore (Context.named "hello") = .nilReader ∧
      pkgDeployGet default deployOnlyStore (Context.named "hello") = .stdout [80, 75] :=
  ⟨rfl, rfl, rfl⟩

end FissionCli.Get
