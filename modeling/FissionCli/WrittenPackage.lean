import FissionCli.PkgUpdate
import FissionCli.Get

/-! The package record a `pkgUpdate` run writes: which of its fields the flags change, what
build status it carries, and that its source archive comes back through `package getsrc`. All
are read off `plannedWrites`, of which every run writes a prefix. -/

namespace FissionCli.PkgUpdate

open Update

theorem package_write_of_run {host : Host} {s : Store} {c : Context} {faults : List Bool}
    {sent : Package} {ack : ObjectMeta}
    (written : Write.package sent ack ∈ (Proc.run host faults s (Proc.start c)).2.2) :
    ∃ pkg srcA deployA, s.packageGet (c.string "name") (c.string "pkgNamespace") = .ok pkg ∧
      (UpdateArgs.ofContext c).check = .ok () ∧
      sent = updatedPackage pkg ((UpdateArgs.ofContext c).dropUnchanged pkg).envName
        ((UpdateArgs.ofContext c).dropUnchanged pkg).envNamespace (c.string "buildcmd") srcA deployA false ∧
      (srcA.isSome ↔ c.stringSlice "src" ≠ []) ∧ (deployA.isSome ↔ c.stringSlice "deploy" ≠ []) := by
  obtain ⟨pkg, got, checked, made⟩ :=
    package_write_of_plan ((run_writes_prefix_of_plan host s c faults).subset written)
  obtain ⟨srcA, deployA, rfl, srcGiven, deployGiven⟩ := updatePackageRecord_ok made
  exact ⟨pkg, srcA, deployA, got, checked, rfl, srcGiven, deployGiven⟩

theorem status_of_dropUnchanged (a : UpdateArgs) (pkg : Package) (srcA deployA : Option Archive) :
    (updatedPackage pkg (a.dropUnchanged pkg).envName (a.dropUnchanged pkg).envNamespace a.buildcmd
      srcA deployA false).status =
      if deployA.isSome then pkg.status
      else if (a.envName ≠ "" ∧ a.envName ≠ pkg.spec.environment.name) ∨
          (a.envNamespace ≠ "" ∧ a.envNamespace ≠ pkg.spec.environment.namespace) ∨
          a.buildcmd ≠ "" ∨ srcA.isSome then ⟨.pending, ""⟩
      else pkg.status := by
  simp only [updatedPackage, needToBuild, UpdateArgs.dropUnchanged]
  split_ifs <;> simp_all

theorem environment_name_of_dropUnchanged (a : UpdateArgs) (pkg : Package) (envNamespace buildcmd : String)
    (srcA deployA : Option Archive) (forceRebuild : Bool) :
    (updatedPackage pkg (a.dropUnchanged pkg).envName envNamespace buildcmd srcA deployA
      forceRebuild).spec.environment.name =
      if a.envName = "" then pkg.spec.environment.name else a.envName := by
  simp only [updatedPackage, UpdateArgs.dropUnchanged]
  split_ifs <;> simp_all

/-- The build status of the package a `pkgUpdate` run writes: unchanged when a deployment
archive is given; otherwise pending, with an empty log, exactly when the environment name or
namespace is given with a new value, a build command is given, or a source archive is. -/
theorem pkgUpdate_written_status (host : Host) (s : Store) (c : Context) (faults : List Bool)
    (p sent : Package) (ack : ObjectMeta)
    (found : s.packageGet (c.string "name") (c.string "pkgNamespace") = .ok p)
    (written : Write.package sent ack ∈ (Proc.run host faults s (Proc.start c)).2.2) :
    sent.status =
      if c.stringSlice "deploy" ≠ [] then p.status
      else if (c.string "env" ≠ "" ∧ c.string "env" ≠ p.spec.environment.name) ∨
          (c.string "envNamespace" ≠ "" ∧ c.string "envNamespace" ≠ p.spec.environment.namespace) ∨
          c.string "buildcmd" ≠ "" ∨ c.stringSlice "src" ≠ [] then ⟨.pending, ""⟩
      else p.status := by
  obtain ⟨pkg, srcA, deployA, got, -, rfl, srcGiven, deployGiven⟩ := package_write_of_run written
  cases found.symm.trans got
  rw [show c.string "buildcmd" = (UpdateArgs.ofContext c).buildcmd from rfl, status_of_dropUnchanged]
  simp only [srcGiven, deployGiven]
  rfl

def pendingPackage : Package :=
  ⟨⟨"hello", "default", 3⟩, ⟨⟨"python", "default"⟩, Archive.empty, Archive.empty, ""⟩, ⟨.pending, ""⟩⟩

def pendingStore : Store := ⟨[pendingPackage], [], 3, by decide, by decide⟩

def deployContext : Context :=
  ⟨fun name => if name = "name" then some "hello" else none,
    fun name => if name = "deploy" then some ["fn.zip"] else none, fun _ => none⟩

theorem pkgUpdate_deploy_keeps_pending :
    deployContext.stringSlice "deploy" ≠ [] ∧
      ∃ sent ack, Write.package sent ack ∈
        (Proc.run zipHost [false, false, false, false] pendingStore (Proc.start deployContext)).2.2 ∧
        sent.status.buildStatus = .pending :=
  ⟨by decide, _, _, List.mem_singleton.mpr rfl, rfl⟩

theorem pkgUpdate_deploy_status_sample :
    ∃ sent ack, pendingStore.packageGet (deployContext.string "name")
        (deployContext.string "pkgNamespace") = .ok pendingPackage ∧
      Write.package sent ack ∈
        (Proc.run zipHost [false, false, false, false] pendingStore (Proc.start deployContext)).2.2 ∧
      sent.status = pendingPackage.status :=
  ⟨_, _, rfl, List.mem_singleton.mpr rfl,
    (pkgUpdate_written_status zipHost pendingStore deployContext [false, false, false, false]
      pendingPackage _ _ rfl
      (List.mem_singleton.mpr rfl)).trans (if_pos (by decide))⟩

/-- The fields of the package a `pkgUpdate` run writes: each is the one read unless its flag was
given, except the environment namespace, whose omitted flag reads as the default. -/
theorem pkgUpdate_written_fields (host : Host) (s : Store) (c : Context) (faults : List Bool)
    (p sent : Package) (ack : ObjectMeta)
    (found : s.packageGet (c.string "name") (c.string "pkgNamespace") = .ok p)
    (written : Write.package sent ack ∈ (Proc.run host faults s (Proc.start c)).2.2) :
    sent.metadata = p.metadata ∧
      (c.strings "env" = none → sent.spec.environment.name = p.spec.environment.name) ∧
      sent.spec.environment.namespace =
        (if c.string "envNamespace" = "" then p.spec.environment.namespace else c.string "envNamespace") ∧
      (c.strings "buildcmd" = none → sent.spec.buildCommand = p.spec.buildCommand) ∧
      (c.stringSlices "src" = none → sent.spec.source = p.spec.source) ∧
      (c.stringSlices "deploy" = none → sent.spec.deployment = p.spec.deployment) := by
  obtain ⟨pkg, srcA, deployA, got, -, rfl, srcGiven, deployGiven⟩ := package_write_of_run written
  cases found.symm.trans got
  refine ⟨rfl, fun omitted => ?_, ?_, fun omitted => ?_, fun omitted => ?_, fun omitted => ?_⟩
  · simp [updatedPackage, UpdateArgs.dropUnchanged, UpdateArgs.ofContext, Context.string, omitted,
      stringFlagDefault]
  · simp only [updatedPackage, UpdateArgs.dropUnchanged, UpdateArgs.ofContext]
    split_ifs <;> simp_all
  · simp [updatedPackage, Context.string, omitted, stringFlagDefault]
  · have none : srcA = none := by simpa [Context.stringSlice, omitted] using srcGiven
    simp [updatedPackage, none]
  · have none : deployA = none := by simpa [Context.stringSlice, omitted] using deployGiven
    simp [updatedPackage, none]

def fissionEnvPackage : Package :=
  ⟨⟨"hello", "default", 3⟩, ⟨⟨"python", "fission-function"⟩, Archive.empty, Archive.empty, ""⟩,
    ⟨.succeeded, ""⟩⟩

def fissionEnvStore : Store := ⟨[fissionEnvPackage], [], 3, by decide, by decide⟩

/-- `package update --name hello --env python`, re-submitting the environment name it has. -/
def sameEnvContext : Context :=
  ⟨fun name => if name = "name" then some "hello" else if name = "env" then some "python" else none,
    fun _ => none, fun _ => none⟩

theorem pkgUpdate_written_fields_sample :
    ∃ sent ack, fissionEnvStore.packageGet (sameEnvContext.string "name")
        (sameEnvContext.string "pkgNamespace") = .ok fissionEnvPackage ∧
      Write.package sent ack ∈ (Proc.run default [false, false, false, false] fissionEnvStore
        (Proc.start sameEnvContext)).2.2 ∧
      sent.spec.environment.namespace = namespaceDefault :=
  ⟨_, _, rfl, List.mem_singleton.mpr rfl,
    (pkgUpdate_written_fields default fissionEnvStore sameEnvContext [false, false, false, false]
      fissionEnvPackage _ _ rfl (List.mem_singleton.mpr rfl)).2.2.1⟩

/-- With `--envNamespace` omitted, its declared default is taken for a new value: re-submitting
the package's own environment name moves its environment to the default namespace and
triggers a build. -/
theorem pkgUpdate_moves_env_to_default_namespace :
    sameEnvContext.string "env" = fissionEnvPackage.spec.environment.name ∧
      sameEnvContext.strings "envNamespace" = none ∧
      ∃ sent ack, (Proc.run default [false, false, false, false] fissionEnvStore
          (Proc.start sameEnvContext)).2.2 = [.package sent ack] ∧
        sent.spec.environment.namespace = namespaceDefault ∧
        fissionEnvPackage.spec.environment.namespace ≠ namespaceDefault ∧
        sent.status.buildStatus = .pending :=
  ⟨rfl, rfl, _, _, rfl, rfl, by decide, rfl⟩

theorem replay_functions_packages (t : Store) (fns : List Function) (pin : Function → Function) :
    (t.replay (fns.map fun fn => .function (pin fn))).packages = t.packages := by
  induction fns generalizing t with
  | nil => rfl
  | cons fn rest ih => simp [ih]

theorem named_of_check {c : Context} (checked : (UpdateArgs.ofContext c).check = .ok ()) :
    c.string "name" ≠ "" := by
  intro empty
  simp [UpdateArgs.check, UpdateArgs.ofContext, empty] at checked

/-- A completed run leaves its package write under the name and namespace it was given. -/
theorem run_done_found {host : Host} {s : Store} {c : Context} {faults : List Bool}
    {newPkgMeta : ObjectMeta} (done : (Proc.run host faults s (Proc.start c)).1.phase = .done newPkgMeta) :
    ∃ sent ack, Write.package sent ack ∈ (Proc.run host faults s (Proc.start c)).2.2 ∧
      (Proc.run host faults s (Proc.start c)).2.1.packageGet (c.string "name") (c.string "pkgNamespace") =
        .ok (Resource.stamp sent (s.revision + 1)) := by
  obtain ⟨sent, wrote⟩ := run_done_writes done
  obtain ⟨pkg, got, -, made⟩ :=
    package_write_of_plan ((run_writes_prefix_of_plan host s c faults).subset (wrote ▸ List.mem_cons_self _ _))
  obtain ⟨srcA, deployA, sentDef, -⟩ := updatePackageRecord_ok made
  obtain ⟨stored, sameKey⟩ := Store.packageGet_ok got
  have sentKey : key sent = key pkg := by rw [sentDef]; rfl
  have present : key (Resource.stamp sent (s.revision + 1)) ∈ s.packages.map key := by
    rw [key_stamp, sentKey]
    exact List.mem_map_of_mem key stored
  have hit := lookup_replace s.packages_fresh.1 present
  refine ⟨sent, _, wrote ▸ List.mem_cons_self _ _, ?_⟩
  rw [run_store, wrote, Store.replay_cons]
  simp only [Store.packageGet, replay_functions_packages, Store.perform_package,
    Store.writePackage_packages]
  rw [← sameKey, ← sentKey, ← key_stamp sent (s.revision + 1), hit]

/-- `package update --name hello --src main.py`. -/
def srcUpdateContext : Context :=
  ⟨fun name => if name = "name" then some "hello" else none,
    fun name => if name = "src" then some ["main.py"] else none, fun _ => none⟩

/-- `package info` after a completed `package update` answers from the record the update wrote. -/
theorem pkgUpdate_then_pkgInfo (host : Host) (s : Store) (c c' : Context) (faults : List Bool)
    (newPkgMeta : ObjectMeta) (done : (Proc.run host faults s (Proc.start c)).1.phase = .done newPkgMeta)
    (named : c'.string "name" = c.string "name")
    (spaced : c'.string "pkgNamespace" = c.string "pkgNamespace") :
    ∃ pkg sent ack, s.packageGet (c.string "name") (c.string "pkgNamespace") = .ok pkg ∧
      Write.package sent ack ∈ (Proc.run host faults s (Proc.start c)).2.2 ∧
      Get.pkgInfo (Proc.run host faults s (Proc.start c)).2.1 c' = .ok
        [["Name:", pkg.metadata.name],
          ["Environment:", if c.string "env" = "" then pkg.spec.environment.name else c.string "env"],
          ["Status:", sent.status.buildStatus.text], ["Build Logs:"], [sent.status.buildLog]] := by
  obtain ⟨sent, ack, written, found⟩ := run_done_found done
  obtain ⟨pkg, got, checked, made⟩ :=
    package_write_of_plan ((run_writes_prefix_of_plan host s c faults).subset written)
  obtain ⟨srcA, deployA, rfl, -⟩ := updatePackageRecord_ok made
  have nonempty : c'.string "name" ≠ "" := named ▸ named_of_check checked
  rw [← named, ← spaced] at found
  refine ⟨pkg, _, ack, got, written, ?_⟩
  rw [Get.pkgInfo_found nonempty found, Get.infoTable_stamp, Get.infoTable,
    environment_name_of_dropUnchanged]
  rfl

theorem pkgUpdate_then_pkgInfo_sample :
    ∃ newPkgMeta, (Proc.run zipHost [false, false, false, false, false] helloStore
        (Proc.start srcUpdateContext)).1.phase = .done newPkgMeta ∧
      ∃ pkg sent ack, helloStore.packageGet (srcUpdateContext.string "name")
          (srcUpdateContext.string "pkgNamespace") = .ok pkg ∧
        Write.package sent ack ∈ (Proc.run zipHost [false, false, false, false, false] helloStore
          (Proc.start srcUpdateContext)).2.2 ∧
        Get.pkgInfo (Proc.run zipHost [false, false, false, false, false] helloStore
          (Proc.start srcUpdateContext)).2.1 (Context.named "hello") = .ok
          [["Name:", pkg.metadata.name],
            ["Environment:", if srcUpdateContext.string "env" = "" then pkg.spec.environment.name
              else srcUpdateContext.string "env"],
            ["Status:", sent.status.buildStatus.text], ["Build Logs:"], [sent.status.buildLog]] :=
  ⟨_, rfl, pkgUpdate_then_pkgInfo zipHost helloStore srcUpdateContext (Context.named "hello") _ _ rfl
    rfl rfl⟩

end FissionCli.PkgUpdate
