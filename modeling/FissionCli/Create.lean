import FissionCli.Get
import FissionCli.PkgUpdate

/-! `package create`: the archives made from `--deploy` and `--src`, the record built from them and
from the flags, and `PackageCreate` (or, when a spec file is named, the package spec saved in its
place). A package made without `--src` has an empty source archive, which `package getsrc` then
reads through a nil reader. -/

namespace FissionCli.Create

open Archive Get PkgUpdate

variable (host : Host)

/-- `SpecExists` of a package as the spec describes it: a recorded package with the same spec. -/
def packageSpecExists (registry : List Package) (pkg : Package) : Option ObjectMeta :=
  (registry.find? (·.spec = pkg.spec)).map (·.metadata)

/-- The archive `createPackage` makes from a flag's files, with the name it derives from them. -/
def archiveAndName (archiveFiles : List String) (noZip : Bool) (specDir specFile : String) :
    Except Fatal (Option (Archive × String)) :=
  match archiveFiles with
  | [] => pure none
  | first :: _ => do
    let archive ← createArchive host archiveFiles noZip specDir specFile
    pure (some (archive, host.kubifyName (host.pathBase first ++ "-" ++ host.newLen 4)))

/-- The record `createPackage` builds. -/
def newPackage (pkgNamespace envName envNamespace buildcmd specFile : String)
    (sourced deployed : Option (Archive × String)) : Package :=
  let pkgStatus : BuildStatus :=
    if sourced.isSome then .pending
    else if deployed.isSome ∧ specFile.length > 0 then .none
    else .succeeded
  let pkgName := ((sourced <|> deployed).map (·.2)).getD ""
  let pkgName := if pkgName.length = 0 then host.newUuid.toLower else pkgName
  ⟨⟨pkgName, pkgNamespace, 0⟩,
    ⟨⟨envName, envNamespace⟩, (sourced.map (·.1)).getD Archive.empty,
      (deployed.map (·.1)).getD Archive.empty, if buildcmd.length > 0 then buildcmd else ""⟩,
    ⟨pkgStatus, ""⟩⟩

/-- The spec directory when a spec file is named, the store otherwise. -/
def savePackage (s : Store) (pkg : Package) (specFile : String) : Except Fatal (ObjectMeta × Store) :=
  if specFile.length > 0 then do
    let fr ← checkErr "read specs" (host.readPackageSpecs host.specDir)
    match packageSpecExists fr pkg with
    | some m => pure (m, s)
    | none => do
      checkErr "save package spec" (host.packageSpecSave pkg specFile)
      pure (pkg.metadata, s)
  else apiCheck "create package" (s.packageCreate pkg)

def createPackage (s : Store) (pkgNamespace envName envNamespace : String)
    (srcArchiveFiles deployArchiveFiles : List String) (buildcmd specDir specFile : String)
    (noZip : Bool) : Except Fatal (ObjectMeta × Store) := do
  let deployed ← archiveAndName host deployArchiveFiles noZip specDir specFile
  let sourced ← archiveAndName host srcArchiveFiles false specDir specFile
  savePackage host s (newPackage host pkgNamespace envName envNamespace buildcmd specFile sourced deployed)
    specFile

def pkgCreate (s : Store) (c : Context) : Except Fatal (ObjectMeta × Store) :=
  let pkgNamespace := c.string "pkgNamespace"
  let envName := c.string "env"
  if envName.length = 0 then throw (.log "Need --env argument.")
  else
    let envNamespace := c.string "envNamespace"
    let srcArchiveFiles := c.stringSlice "src"
    let deployArchiveFiles := c.stringSlice "deploy"
    let buildcmd := c.string "buildcmd"
    if srcArchiveFiles.length = 0 ∧ deployArchiveFiles.length = 0 then
      throw (.log "Need --src to specify source archive, or use --deploy to specify deployment archive.")
    else
      createPackage host s pkgNamespace envName envNamespace srcArchiveFiles deployArchiveFiles
        buildcmd "" "" false

theorem archiveAndName_ok {files : List String} {noZip : Bool} {specDir specFile : String}
    {made : Option (Archive × String)} (ok : archiveAndName host files noZip specDir specFile = .ok made) :
    (made.isSome ↔ files ≠ []) ∧ ∀ a ∈ made, a.1.WellFormed ∧
      (specFile = "" → ∃ path, LocalArchiveFile host files noZip path ∧ Uploaded host path a.1) := by
  cases files with
  | nil =>
    cases ok
    simp
  | cons first rest =>
    obtain ⟨archive, created, named⟩ := bind_eq_ok.mp ok
    cases named
    refine ⟨by simp, fun a member => ?_⟩
    cases Option.mem_some_iff.mp member
    exact ⟨createArchive_made_wellFormed host created,
      fun unnamed => createArchive_uploaded host (unnamed ▸ created)⟩

theorem archiveAndName_wellFormed {files : List String} {noZip : Bool} {specDir specFile : String}
    {made : Option (Archive × String)} (ok : archiveAndName host files noZip specDir specFile = .ok made) :
    ∀ a ∈ made, a.1.WellFormed :=
  fun a member => ((archiveAndName_ok host ok).2 a member).1

theorem archiveSlot_unset {files : List String} {noZip : Bool} {specDir specFile : String}
    {made : Option (Archive × String)} (ok : archiveAndName host files noZip specDir specFile = .ok made) :
    ((made.map (·.1)).getD Archive.empty).type = .unset ↔ files = [] := by
  obtain ⟨given, typed⟩ := archiveAndName_ok host ok
  rcases made with _ | ⟨a, n⟩
  · simpa [Archive.empty] using given
  · rcases (typed (a, n) rfl).1.typed with t | t <;> simp_all

/-- What a direct `createPackage`, with no spec file, stores. -/
theorem createPackage_ok {s s' : Store} {pkgNamespace envName envNamespace buildcmd specDir : String}
    {src deploy : List String} {noZip : Bool} {meta : ObjectMeta}
    (ran : createPackage host s pkgNamespace envName envNamespace src deploy buildcmd specDir "" noZip =
      .ok (meta, s')) :
    ∃ pkg : Package, s'.packages = s.packages ++ [pkg] ∧ s'.functions = s.functions ∧
      s'.revision = s.revision + 1 ∧ pkg.metadata = meta ∧ meta.namespace = pkgNamespace ∧
      meta.resourceVersion = s.revision + 1 ∧ pkg.spec.environment = ⟨envName, envNamespace⟩ ∧
      pkg.spec.buildCommand = buildcmd ∧ (pkg.spec.source.type = .unset ↔ src = []) ∧
      (pkg.spec.deployment.type = .unset ↔ deploy = []) ∧
      pkg.status = ⟨if src = [] then .succeeded else .pending, ""⟩ ∧
      (src ≠ [] → ∃ path, LocalArchiveFile host src false path ∧ Uploaded host path pkg.spec.source) := by
  obtain ⟨deployed, deployMade, sourced, srcMade, saved⟩ := by
    simpa only [createPackage, bind_eq_ok] using ran
  obtain ⟨srcGiven, srcTyped⟩ := archiveAndName_ok host srcMade
  simp only [savePackage, String.length_empty, gt_iff_lt, Nat.lt_irrefl, if_false,
    apiCheck_eq_ok] at saved
  obtain ⟨rfl, packages, functions, revision⟩ := Store.packageCreate_ok saved
  refine ⟨_, packages, functions, revision, rfl, rfl, rfl, rfl, ?_, ?_, ?_, ?_, fun given => ?_⟩
  · by_cases empty : buildcmd = "" <;> simp [newPackage, empty]
  · exact archiveSlot_unset host srcMade
  · exact archiveSlot_unset host deployMade
  · by_cases empty : src = [] <;> simp [newPackage, empty, srcGiven]
  · rcases sourced with _ | ⟨a, n⟩
    · exact absurd (srcGiven.mpr given) (by simp)
    · simpa [newPackage] using (srcTyped (a, n) rfl).2 rfl

theorem pkgCreate_ok {s : Store} {c : Context} {r : ObjectMeta × Store} (ran : pkgCreate host s c = .ok r) :
    c.string "env" ≠ "" ∧ (c.stringSlice "src" ≠ [] ∨ c.stringSlice "deploy" ≠ []) ∧
      createPackage host s (c.string "pkgNamespace") (c.string "env") (c.string "envNamespace")
        (c.stringSlice "src") (c.stringSlice "deploy") (c.string "buildcmd") "" "" false = .ok r := by
  unfold pkgCreate at ran
  dsimp only at ran
  split at ran
  · cases ran
  · next envGiven =>
    split at ran
    · cases ran
    · next inputGiven =>
      simp only [List.length_eq_zero, not_and_or] at inputGiven
      exact ⟨by simpa using envGiven, inputGiven, ran⟩

/-- `package create --env python --deploy app.zip`. -/
def deployCreateContext : Context :=
  ⟨fun flag => if flag = "env" then some "python" else none,
    fun flag => if flag = "deploy" then some ["app.zip"] else none, fun _ => none⟩

theorem pkgCreate_found {s s' : Store} {c : Context} {meta : ObjectMeta}
    (ran : pkgCreate host s c = .ok (meta, s')) :
    ∃ pkg : Package, s'.packageGet meta.name meta.namespace = .ok pkg ∧
      (pkg.spec.source.type = .unset ↔ c.stringSlice "src" = []) ∧
      (c.stringSlice "src" ≠ [] →
        ∃ path, LocalArchiveFile host (c.stringSlice "src") false path ∧ Uploaded host path pkg.spec.source) := by
  obtain ⟨-, -, direct⟩ := pkgCreate_ok host ran
  obtain ⟨pkg, packages, -, -, stamped, -, -, -, -, unset, -, -, uploaded⟩ := createPackage_ok host direct
  have hit := lookup_of_mem s'.packages_fresh.1 (show pkg ∈ s'.packages by simp [packages])
  rw [show key pkg = (meta.name, meta.namespace) by simp [key, Resource.objectMeta, stamped]] at hit
  exact ⟨pkg, by simp [Store.packageGet, hit], unset, uploaded⟩

/-- Every package `package create` makes without `--src` breaks `package getsrc`: its empty source
archive is read through a nil reader. -/
theorem pkgCreate_deploy_only_breaks_getsrc (s s' : Store) (c c' : Context) (meta : ObjectMeta)
    (ran : pkgCreate host s c = .ok (meta, s')) (deployOnly : c.stringSlice "src" = [])
    (named : c'.string "name" = meta.name) (spaced : c'.string "pkgNamespace" = meta.namespace)
    (toStdout : c'.string "output" = "") (nonempty : meta.name ≠ "") :
    pkgSourceGet host s' c' = .nilReader := by
  obtain ⟨pkg, found, unset, -⟩ := pkgCreate_found host ran
  rw [← named, ← spaced] at found
  exact getArchive_unset host (by rwa [named]) found (unset.mpr deployOnly) toStdout

theorem pkgCreate_deploy_only_sample :
    ∃ meta s', pkgCreate zipHost helloStore deployCreateContext = .ok (meta, s') ∧
      deployCreateContext.stringSlice "src" = [] ∧ meta.name = "-" ∧
      pkgSourceGet zipHost s' (Context.named "-") = .nilReader :=
  ⟨_, _, rfl, rfl, rfl, pkgCreate_deploy_only_breaks_getsrc zipHost helloStore _ deployCreateContext
    (Context.named "-") _ rfl rfl rfl rfl rfl (by decide)⟩

/-- `package create --env python --src main.py`. -/
def srcCreateContext : Context :=
  ⟨fun flag => if flag = "env" then some "python" else none,
    fun flag => if flag = "src" then some ["main.py"] else none, fun _ => none⟩

end FissionCli.Create
