import FissionCli.Store
import FissionCli.Archive

/-! `updatePackage`, the record it sends and the archives it makes for it, and `pkgRebuild`,
which calls it to force a build. The flags `pkgUpdate` reads and its argument checks are here
too; `PkgUpdate` runs the command itself. -/

namespace FissionCli.Update

open Archive

/-- The values `pkgUpdate` reads from its flags. -/
structure UpdateArgs where
  pkgName : String
  pkgNamespace : String
  force : Bool
  envName : String
  envNamespace : String
  srcArchiveFiles : List String
  deployArchiveFiles : List String
  buildcmd : String
  deriving DecidableEq, Repr

def UpdateArgs.ofContext (c : Context) : UpdateArgs where
  pkgName := c.string "name"
  pkgNamespace := c.string "pkgNamespace"
  force := c.bool "f"
  envName := c.string "env"
  envNamespace := c.string "envNamespace"
  srcArchiveFiles := c.stringSlice "src"
  deployArchiveFiles := c.stringSlice "deploy"
  buildcmd := c.string "buildcmd"

/-- The argument checks `pkgUpdate` makes before it calls the controller. -/
def UpdateArgs.check (a : UpdateArgs) : Except Fatal Unit :=
  if a.pkgName.length = 0 then throw (.log "Need --name argument.")
  else if a.srcArchiveFiles.length > 0 ∧ a.deployArchiveFiles.length > 0 then
    throw (.log "Need either of --src or --deploy and not both arguments.")
  else if a.srcArchiveFiles.length = 0 ∧ a.deployArchiveFiles.length = 0 ∧
      a.envName.length = 0 ∧ a.buildcmd.length = 0 then
    throw (.log "Need --env or --src or --deploy or --buildcmd argument.")
  else pure ()

/-- `pkgUpdate` drops an environment name or namespace equal to the stored one. -/
def UpdateArgs.dropUnchanged (a : UpdateArgs) (pkg : Package) : UpdateArgs :=
  { a with
    envName := if a.envName.length > 0 ∧ a.envName = pkg.spec.environment.name then "" else a.envName
    envNamespace := if a.envNamespace = pkg.spec.environment.namespace then "" else a.envNamespace }

@[simp] theorem dropUnchanged_pkgName (a : UpdateArgs) (pkg : Package) :
    (a.dropUnchanged pkg).pkgName = a.pkgName := rfl

@[simp] theorem dropUnchanged_pkgNamespace (a : UpdateArgs) (pkg : Package) :
    (a.dropUnchanged pkg).pkgNamespace = a.pkgNamespace := rfl

@[simp] theorem dropUnchanged_force (a : UpdateArgs) (pkg : Package) :
    (a.dropUnchanged pkg).force = a.force := rfl

/-- Whether `updatePackage` owes a build. -/
def needToBuild (envName envNamespace buildcmd : String)
    (srcArchiveMetadata deployArchiveMetadata : Option Archive) : Bool :=
  if deployArchiveMetadata.isSome then false
  else envName.length > 0 || envNamespace.length > 0 || buildcmd.length > 0 || srcArchiveMetadata.isSome

/-- The record `updatePackage` sends, once its archives are made. -/
def updatedPackage (pkg : Package) (envName envNamespace buildcmd : String)
    (srcArchiveMetadata deployArchiveMetadata : Option Archive) (forceRebuild : Bool) : Package where
  metadata := pkg.metadata
  spec :=
    { environment :=
        { name := if envName.length > 0 then envName else pkg.spec.environment.name
          «namespace» := if envNamespace.length > 0 then envNamespace else pkg.spec.environment.namespace }
      source := srcArchiveMetadata.getD pkg.spec.source
      deployment := deployArchiveMetadata.getD pkg.spec.deployment
      buildCommand := if buildcmd.length > 0 then buildcmd else pkg.spec.buildCommand }
  status :=
    if needToBuild envName envNamespace buildcmd srcArchiveMetadata deployArchiveMetadata || forceRebuild
    then ⟨.pending, ""⟩ else pkg.status

@[simp] theorem updatedPackage_metadata (pkg : Package) (envName envNamespace buildcmd : String)
    (srcA deployA : Option Archive) (forceRebuild : Bool) :
    (updatedPackage pkg envName envNamespace buildcmd srcA deployA forceRebuild).metadata =
      pkg.metadata := rfl

/-- The archive `updatePackage` makes from the files of one flag, if any were given. -/
def archiveIfGiven (host : Host) (archiveFiles : List String) (noZip : Bool) :
    Except Fatal (Option Archive) :=
  if archiveFiles.length > 0 then some <$> createArchive host archiveFiles noZip "" "" else pure none

/-- The archives `updatePackage` makes, source first, and the record it then sends. -/
def updatePackageRecord (host : Host) (pkg : Package) (envName envNamespace : String)
    (srcArchiveFiles deployArchiveFiles : List String) (buildcmd : String)
    (forceRebuild noZip : Bool) : Except Fatal Package := do
  let srcArchiveMetadata ← archiveIfGiven host srcArchiveFiles false
  let deployArchiveMetadata ← archiveIfGiven host deployArchiveFiles noZip
  pure (updatedPackage pkg envName envNamespace buildcmd srcArchiveMetadata deployArchiveMetadata
    forceRebuild)

/-- `fault` is the `PackageUpdate` call lost in transport. -/
def updatePackage (host : Host) (fault : Bool) (s : Store) (pkg : Package)
    (envName envNamespace : String) (srcArchiveFiles deployArchiveFiles : List String)
    (buildcmd : String) (forceRebuild noZip : Bool) : Except Fatal (Package × ObjectMeta × Store) := do
  let sent ← updatePackageRecord host pkg envName envNamespace srcArchiveFiles deployArchiveFiles
    buildcmd forceRebuild noZip
  let (newPkgMeta, s') ← apiCheck "update package" (call fault (s.packageUpdate sent))
  pure (sent, newPkgMeta, s')

def pkgRebuild (host : Host) (s : Store) (c : Context) : Except Fatal (ObjectMeta × Store) := do
  let pkgName := c.string "name"
  if pkgName.length = 0 then throw (.log "Need name of package, use --name")
  let pkgNamespace := c.string "pkgNamespace"
  let pkg ← apiCheck "find package" (s.packageGet pkgName pkgNamespace)
  if pkg.status.buildStatus ≠ .failed then
    throw (.log ("Package " ++ pkg.metadata.name ++ " is not in " ++
      BuildStatus.failed.text ++ " state."))
  let (_, newPkgMeta, s') ← updatePackage host false s pkg "" "" [] [] "" true false
  pure (newPkgMeta, s')

theorem archiveIfGiven_ok {host : Host} {files : List String} {noZip : Bool}
    {made : Option Archive} (ok : archiveIfGiven host files noZip = .ok made) :
    made.isSome ↔ files ≠ [] := by
  unfold archiveIfGiven at ok
  split at ok
  · obtain ⟨a, -, rfl⟩ := map_eq_ok.mp ok
    simp_all [List.length_pos]
  · cases ok
    simp_all

theorem archiveIfGiven_wellFormed {host : Host} {files : List String} {noZip : Bool}
    {made : Option Archive} (ok : archiveIfGiven host files noZip = .ok made) : ∀ a ∈ made, a.WellFormed := by
  intro a member
  unfold archiveIfGiven at ok
  split at ok
  · obtain ⟨b, created, rfl⟩ := map_eq_ok.mp ok
    cases Option.mem_some_iff.mp member
    exact createArchive_made_wellFormed host created
  · cases ok
    cases member

theorem archiveIfGiven_some {host : Host} {files : List String} {noZip : Bool}
    {made : Option Archive} (given : files ≠ []) (ok : archiveIfGiven host files noZip = .ok made) :
    ∃ a, made = some a ∧ createArchive host files noZip "" "" = .ok a := by
  unfold archiveIfGiven at ok
  rw [if_pos (List.length_pos.mpr given)] at ok
  obtain ⟨a, created, rfl⟩ := map_eq_ok.mp ok
  exact ⟨a, rfl, created⟩

theorem archiveIfGiven_fails {host : Host} {files : List String} {noZip : Bool} (given : files ≠ [])
    (fails : ∀ a, createArchive host files noZip "" "" ≠ .ok a) (made : Option Archive) :
    archiveIfGiven host files noZip ≠ .ok made := by
  intro ok
  obtain ⟨a, -, created⟩ := archiveIfGiven_some given ok
  exact fails a created

/-- When the archive of either flag cannot be made, `updatePackage` sends no record. -/
theorem updatePackageRecord_fails {host : Host} {pkg : Package} {envName envNamespace buildcmd : String}
    {src deploy : List String} {forceRebuild noZip : Bool}
    (fails : (∀ made, archiveIfGiven host src false ≠ .ok made) ∨
      ∀ made, archiveIfGiven host deploy noZip ≠ .ok made) (sent : Package) :
    updatePackageRecord host pkg envName envNamespace src deploy buildcmd forceRebuild noZip ≠ .ok sent := by
  intro ok
  simp only [updatePackageRecord, bind_eq_ok] at ok
  obtain ⟨srcA, srcMade, deployA, deployMade, -⟩ := ok
  rcases fails with srcFails | deployFails
  · exact srcFails srcA srcMade
  · exact deployFails deployA deployMade

theorem updatePackageRecord_ok {host : Host} {pkg sent : Package}
    {envName envNamespace buildcmd : String} {src deploy : List String} {forceRebuild noZip : Bool}
    (made : updatePackageRecord host pkg envName envNamespace src deploy buildcmd forceRebuild noZip =
      .ok sent) :
    ∃ srcA deployA, sent = updatedPackage pkg envName envNamespace buildcmd srcA deployA forceRebuild ∧
      (srcA.isSome ↔ src ≠ []) ∧ (deployA.isSome ↔ deploy ≠ []) := by
  simp only [updatePackageRecord, bind_eq_ok] at made
  obtain ⟨srcA, srcMade, deployA, deployMade, sent⟩ := made
  exact ⟨srcA, deployA, by cases sent; rfl, archiveIfGiven_ok srcMade, archiveIfGiven_ok deployMade⟩

theorem updatePackageRecord_archives {host : Host} {pkg sent : Package}
    {envName envNamespace buildcmd : String} {src deploy : List String} {forceRebuild noZip : Bool}
    (made : updatePackageRecord host pkg envName envNamespace src deploy buildcmd forceRebuild noZip =
      .ok sent) :
    (sent.spec.source.WellFormed ∨ sent.spec.source = pkg.spec.source) ∧
      (sent.spec.deployment.WellFormed ∨ sent.spec.deployment = pkg.spec.deployment) := by
  simp only [updatePackageRecord, bind_eq_ok, pure_eq_ok, Except.ok.injEq] at made
  obtain ⟨srcA, srcMade, deployA, deployMade, rfl⟩ := made
  constructor
  · rcases srcA with _ | a
    · exact .inr rfl
    · exact .inl (archiveIfGiven_wellFormed srcMade a rfl)
  · rcases deployA with _ | a
    · exact .inr rfl
    · exact .inl (archiveIfGiven_wellFormed deployMade a rfl)

theorem updatePackage_ok {host : Host} {fault : Bool} {s s' : Store} {pkg sent : Package}
    {envName envNamespace buildcmd : String} {src deploy : List String} {forceRebuild noZip : Bool}
    {newPkgMeta : ObjectMeta}
    (ok : updatePackage host fault s pkg envName envNamespace src deploy buildcmd forceRebuild noZip =
      .ok (sent, newPkgMeta, s')) :
    fault = false ∧
      updatePackageRecord host pkg envName envNamespace src deploy buildcmd forceRebuild noZip =
        .ok sent ∧
      s.packageUpdate sent = .ok (newPkgMeta, s') := by
  simp only [updatePackage, bind_eq_ok] at ok
  obtain ⟨sent', made, ⟨meta', s''⟩, written, done⟩ := ok
  cases done
  cases fault
  · exact ⟨rfl, made, by simpa using written⟩
  · simp at written

theorem updatePackageRecord_rebuild (host : Host) (pkg : Package) :
    updatePackageRecord host pkg "" "" [] [] "" true false =
      .ok { pkg with status := ⟨.pending, ""⟩ } := by
  simp [updatePackageRecord, archiveIfGiven, updatedPackage]

/-- `package rebuild` writes the package it reads exactly when its build failed, and then only its
status, set to pending with an empty log. -/
theorem pkgRebuild_writes_only_failed (host : Host) (s : Store) (c : Context) (p : Package)
    (named : c.string "name" ≠ "")
    (found : s.packageGet (c.string "name") (c.string "pkgNamespace") = .ok p) :
    pkgRebuild host s c =
      if p.status.buildStatus = .failed then
        .ok ({ p.metadata with resourceVersion := s.revision + 1 },
          s.writePackage { p with status := ⟨.pending, ""⟩ })
      else .error (.log ("Package " ++ p.metadata.name ++ " is not in " ++ BuildStatus.failed.text ++
        " state.")) := by
  have accepted := Store.packageUpdate_of_packageGet { p with status := ⟨.pending, ""⟩ } found rfl rfl
  by_cases failed : p.status.buildStatus = .failed
  · simp [pkgRebuild, named, found, failed, updatePackage, updatePackageRecord_rebuild, accepted]
  · simp [pkgRebuild, named, found, failed]

/-- A package whose build failed. -/
def failedPackage : Package :=
  ⟨⟨"hello", "default", 3⟩, ⟨⟨"python", "default"⟩, Archive.empty, Archive.empty, ""⟩, ⟨.failed, "err"⟩⟩

def failedStore : Store := ⟨[failedPackage], [], 3, by decide, by decide⟩

def rebuildContext : Context := ⟨fun name => if name = "name" then some "hello" else none,
  fun _ => none, fun _ => none⟩

theorem pkgRebuild_failed_sample :
    rebuildContext.string "name" ≠ "" ∧
      failedStore.packageGet (rebuildContext.string "name") (rebuildContext.string "pkgNamespace") =
        .ok failedPackage ∧
      pkgRebuild default failedStore rebuildContext =
        .ok ({ failedPackage.metadata with resourceVersion := 4 },
          failedStore.writePackage { failedPackage with status := ⟨.pending, ""⟩ }) :=
  ⟨by decide, rfl, pkgRebuild_writes_only_failed default failedStore rebuildContext failedPackage
    (by decide) rfl⟩

end FissionCli.Update
