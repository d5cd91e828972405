import FissionCli.Update

/-! `pkgUpdate` as the calls it makes to the controller: read the package, list the functions
that use it, write the package, then write each of those functions re-pinned to the package's
new resource version. Each call is one step, and the network may lose any of them. A run that
loses no call writes what `plannedWrites` lists; every run writes a prefix of it. -/

namespace FissionCli.PkgUpdate

open Update

/-- Where a `pkgUpdate` invocation stands: the call it makes next, or how it ended. -/
inductive Phase where
  | getPackage
  | listFunctions (pkg : Package)
  | updatePackage (pkg : Package) (fnList : List Function)
  | updateFunctions (newPkgMeta : ObjectMeta) (rest : List Function)
  | done (newPkgMeta : ObjectMeta)
  | failed (err : Fatal)
  deriving DecidableEq, Repr

structure Proc where
  args : UpdateArgs
  phase : Phase
  deriving DecidableEq, Repr

/-- An invocation with the given flags, past its argument checks. -/
def Proc.start (c : Context) : Proc :=
  let args := UpdateArgs.ofContext c
  ⟨args, match args.check with
    | .ok () => .getPackage
    | .error err => .failed err⟩

/-- One call of the invocation; `fault` is that call lost in transport. -/
def Proc.step (host : Host) (fault : Bool) (s : Store) (p : Proc) : Proc × Store × Option Write :=
  match p.phase with
  | .getPackage =>
    match call fault (s.packageGet p.args.pkgName p.args.pkgNamespace) with
    | .error e => (⟨p.args, .failed (.api "get package" e)⟩, s, none)
    | .ok pkg => (⟨p.args.dropUnchanged pkg, .listFunctions pkg⟩, s, none)
  | .listFunctions pkg =>
    if fault then (⟨p.args, .failed (.api "get function list" .unreachable)⟩, s, none)
    else
      let fnList := getFunctionsByPackage s pkg.metadata.name pkg.metadata.namespace
      if p.args.force = false ∧ fnList.length > 1 then
        (⟨p.args, .failed (.log "Package is used by multiple functions, use --force to force update")⟩,
          s, none)
      else (⟨p.args, .updatePackage pkg fnList⟩, s, none)
  | .updatePackage pkg fnList =>
    match Update.updatePackage host fault s pkg p.args.envName p.args.envNamespace
        p.args.srcArchiveFiles p.args.deployArchiveFiles p.args.buildcmd false false with
    | .error err => (⟨p.args, .failed err⟩, s, none)
    | .ok (sent, newPkgMeta, s') =>
      (⟨p.args, .updateFunctions newPkgMeta fnList⟩, s', some (.package sent newPkgMeta))
  | .updateFunctions newPkgMeta [] => (⟨p.args, .done newPkgMeta⟩, s, none)
  | .updateFunctions newPkgMeta (fn :: rest) =>
    match call fault (s.functionUpdate (fn.repin newPkgMeta.resourceVersion)) with
    | .error e => (⟨p.args, .failed (.api "update function" e)⟩, s, none)
    | .ok (_, s') => (⟨p.args, .updateFunctions newPkgMeta rest⟩, s',
        some (.function (fn.repin newPkgMeta.resourceVersion)))
  | .done _ => (p, s, none)
  | .failed _ => (p, s, none)

/-- The invocation run alone, one call for each entry of `faults`. -/
def Proc.run (host : Host) : List Bool → Store → Proc → Proc × Store × List Write
  | [], s, p => (p, s, [])
  | fault :: faults, s, p =>
    let r := p.step host fault s
    let r' := Proc.run host faults r.2.1 r.1
    (r'.1, r'.2.1, r.2.2.toList ++ r'.2.2)

/-- What `pkgUpdate` writes when no call is lost. -/
def plannedWrites (host : Host) (s : Store) (c : Context) : List Write :=
  let args := UpdateArgs.ofContext c
  match args.check, s.packageGet args.pkgName args.pkgNamespace with
  | .ok (), .ok pkg =>
    let args := args.dropUnchanged pkg
    let fnList := getFunctionsByPackage s args.pkgName args.pkgNamespace
    if args.force = false ∧ fnList.length > 1 then []
    else
      match updatePackageRecord host pkg args.envName args.envNamespace args.srcArchiveFiles
          args.deployArchiveFiles args.buildcmd false false with
      | .error _ => []
      | .ok sent =>
        let newPkgMeta := { sent.metadata with resourceVersion := s.revision + 1 }
        .package sent newPkgMeta :: fnList.map fun fn => .function (fn.repin newPkgMeta.resourceVersion)
  | _, _ => []

def Phase.Finished : Phase → Prop
  | .done _ | .failed _ => True
  | _ => False

/-- Everything one call of an invocation can do, with the guard of each transition. -/
inductive Moves (host : Host) (s : Store) (p : Proc) : Proc → Store → Option Write → Prop where
  | fail (err : Fatal) : Moves host s p ⟨p.args, .failed err⟩ s none
  | stay : p.phase.Finished → Moves host s p p s none
  | read (pkg : Package) : p.phase = .getPackage →
      s.packageGet p.args.pkgName p.args.pkgNamespace = .ok pkg →
      Moves host s p ⟨p.args.dropUnchanged pkg, .listFunctions pkg⟩ s none
  | list (pkg : Package) : p.phase = .listFunctions pkg →
      ¬(p.args.force = false ∧ (getFunctionsByPackage s pkg.metadata.name pkg.metadata.namespace).length > 1) →
      Moves host s p ⟨p.args, .updatePackage pkg (getFunctionsByPackage s pkg.metadata.name pkg.metadata.namespace)⟩ s none
  | writePackage (pkg sent : Package) (fnList : List Function) : p.phase = .updatePackage pkg fnList →
      updatePackageRecord host pkg p.args.envName p.args.envNamespace p.args.srcArchiveFiles
        p.args.deployArchiveFiles p.args.buildcmd false false = .ok sent →
      admits s.packages sent = .ok () →
      Moves host s p ⟨p.args, .updateFunctions { sent.metadata with resourceVersion := s.revision + 1 } fnList⟩
        (s.writePackage sent) (some (.package sent { sent.metadata with resourceVersion := s.revision + 1 }))
  | finish (newPkgMeta : ObjectMeta) : p.phase = .updateFunctions newPkgMeta [] →
      Moves host s p ⟨p.args, .done newPkgMeta⟩ s none
  | writeFunction (newPkgMeta : ObjectMeta) (fn : Function) (rest : List Function) :
      p.phase = .updateFunctions newPkgMeta (fn :: rest) →
      admits s.functions (fn.repin newPkgMeta.resourceVersion) = .ok () →
      Moves host s p ⟨p.args, .updateFunctions newPkgMeta rest⟩
        (s.writeFunction (fn.repin newPkgMeta.resourceVersion))
        (some (.function (fn.repin newPkgMeta.resourceVersion)))

theorem step_moves (host : Host) (fault : Bool) (s : Store) (p : Proc) :
    Moves host s p (p.step host fault s).1 (p.step host fault s).2.1 (p.step host fault s).2.2 := by
  rcases p with ⟨args, phase⟩
  cases phase with
  | getPackage =>
    simp only [Proc.step]
    split
    · exact .fail _
    · next pkg got => exact .read pkg rfl (call_ok got).2
  | listFunctions pkg =>
    simp only [Proc.step]
    split
    · exact .fail _
    · split
      · exact .fail _
      · next guard => exact .list pkg rfl guard
  | updatePackage pkg fnList =>
    simp only [Proc.step]
    split
    · exact .fail _
    · next sent newPkgMeta s' ok =>
      obtain ⟨-, made, written⟩ := updatePackage_ok ok
      obtain ⟨admitted, rfl, rfl⟩ := Store.update_ok written
      exact .writePackage pkg sent fnList rfl made admitted
  | updateFunctions newPkgMeta rest =>
    cases rest with
    | nil => exact .finish newPkgMeta rfl
    | cons fn rest =>
      simp only [Proc.step]
      split
      · exact .fail _
      · next ack s' ok =>
        obtain ⟨admitted, -, rfl⟩ := Store.update_ok (call_ok ok).2
        exact .writeFunction newPkgMeta fn rest rfl admitted
  | done newPkgMeta => exact .stay trivial
  | failed err => exact .stay trivial

theorem Moves.store {host : Host} {s s' : Store} {p p' : Proc} {w : Option Write}
    (moves : Moves host s p p' s' w) : s' = s.replay w.toList := by
  cases moves <;> rfl

theorem step_fault (host : Host) (s : Store) (p : Proc) :
    p.step host true s = p.step host false s ∨
      ∃ err, p.step host true s = (⟨p.args, .failed err⟩, s, none) := by
  rcases p with ⟨args, phase⟩
  cases phase with
  | updatePackage pkg fnList =>
    right
    simp only [Proc.step]
    split
    · exact ⟨_, rfl⟩
    · next ok => cases (updatePackage_ok ok).1
  | updateFunctions newPkgMeta rest =>
    cases rest with
    | nil => exact .inl rfl
    | cons fn rest => exact .inr ⟨_, rfl⟩
  | done newPkgMeta => exact .inl rfl
  | failed err => exact .inl rfl
  | getPackage => exact .inr ⟨_, rfl⟩
  | listFunctions pkg => exact .inr ⟨_, rfl⟩

@[simp] theorem run_nil (host : Host) (s : Store) (p : Proc) : Proc.run host [] s p = (p, s, []) := rfl

theorem run_cons (host : Host) (fault : Bool) (faults : List Bool) (s : Store) (p : Proc) :
    Proc.run host (fault :: faults) s p =
      ((Proc.run host faults (p.step host fault s).2.1 (p.step host fault s).1).1,
        (Proc.run host faults (p.step host fault s).2.1 (p.step host fault s).1).2.1,
        (p.step host fault s).2.2.toList ++
          (Proc.run host faults (p.step host fault s).2.1 (p.step host fault s).1).2.2) := rfl

theorem run_finished (host : Host) (faults : List Bool) (s : Store) (p : Proc)
    (finished : p.phase.Finished) : Proc.run host faults s p = (p, s, []) := by
  induction faults with
  | nil => rfl
  | cons fault faults ih =>
    have still : p.step host fault s = (p, s, none) := by
      rcases p with ⟨args, phase⟩
      cases phase <;> simp_all [Phase.Finished, Proc.step]
    simp [run_cons, still, ih]

theorem run_append (host : Host) (faults more : List Bool) (s : Store) (p : Proc) :
    Proc.run host (faults ++ more) s p =
      let r := Proc.run host faults s p
      let r' := Proc.run host more r.2.1 r.1
      (r'.1, r'.2.1, r.2.2 ++ r'.2.2) := by
  induction faults generalizing s p with
  | nil => rfl
  | cons fault faults ih => simp [run_cons, ih]

theorem run_store (host : Host) (faults : List Bool) (s : Store) (p : Proc) :
    (Proc.run host faults s p).2.1 = s.replay (Proc.run host faults s p).2.2 := by
  induction faults generalizing s p with
  | nil => rfl
  | cons fault faults ih =>
    rw [run_cons, ih, (step_moves host fault s p).store]
    simp [Store.replay, List.foldl_append]

/-- A run that loses calls ran as if it lost none, or stopped after a prefix of that run's writes. -/
theorem run_truncates (host : Host) (faults : List Bool) (s : Store) (p : Proc) :
    Proc.run host faults s p = Proc.run host (List.replicate faults.length false) s p ∨
      (∃ err, (Proc.run host faults s p).1.phase = .failed err) ∧
        (Proc.run host faults s p).2.2 <+: (Proc.run host (List.replicate faults.length false) s p).2.2 := by
  induction faults generalizing s p with
  | nil => exact .inl rfl
  | cons fault faults ih =>
    have first : p.step host fault s = p.step host false s ∨
        ∃ err, p.step host fault s = (⟨p.args, .failed err⟩, s, none) := by
      cases fault
      · exact .inl rfl
      · exact step_fault host s p
    rcases first with same | ⟨err, stopped⟩
    · rcases ih (p.step host false s).2.1 (p.step host false s).1 with equal | ⟨failed, pre⟩
      · left
        simp only [List.length_cons, List.replicate_succ, run_cons, same, equal]
      · right
        simp only [List.length_cons, List.replicate_succ, run_cons, same]
        exact ⟨failed, (List.prefix_append_right_inj _).mpr pre⟩
    · right
      rw [run_cons, stopped, run_finished host faults s ⟨p.args, .failed err⟩ trivial]
      exact ⟨⟨err, rfl⟩, List.nil_prefix⟩

theorem run_updateFunctions (host : Host) (args : UpdateArgs) (newPkgMeta : ObjectMeta)
    (rest : List Function) (s : Store) (k : Nat)
    (present : ∀ fn ∈ rest, fn ∈ s.functions) (distinct : (rest.map key).Nodup) :
    Proc.run host (List.replicate (rest.length + 1 + k) false) s ⟨args, .updateFunctions newPkgMeta rest⟩ =
      (⟨args, .done newPkgMeta⟩,
        s.replay (rest.map fun fn => .function (fn.repin newPkgMeta.resourceVersion)),
        rest.map fun fn => .function (fn.repin newPkgMeta.resourceVersion)) := by
  induction rest generalizing s with
  | nil =>
    rw [show [].length + 1 + k = k + 1 by simp [Nat.add_comm], List.replicate_succ, run_cons]
    simp [Proc.step, run_finished host _ _ ⟨args, .done newPkgMeta⟩ trivial]
  | cons fn rest ih =>
    simp only [List.map_cons, List.nodup_cons, List.mem_map] at distinct
    have accepted := Store.functionUpdate_of_mem (fn.repin newPkgMeta.resourceVersion)
      (present fn (List.mem_cons_self fn rest)) rfl rfl
    have kept : ∀ other ∈ rest, other ∈ (s.writeFunction (fn.repin newPkgMeta.resourceVersion)).functions := by
      intro other member
      refine mem_replace_of_ne (present other (List.mem_cons_of_mem fn member)) ?_
      simpa using fun same => distinct.1 ⟨other, member, same⟩
    rw [show (fn :: rest).length + 1 + k = rest.length + 1 + k + 1 by simp; omega,
      List.replicate_succ, run_cons]
    simp [Proc.step, accepted, ih _ kept distinct.2]

/-- The run that loses no call writes `plannedWrites`. -/
theorem run_ideal (host : Host) (s : Store) (c : Context) (k : Nat) :
    let r := Proc.run host (List.replicate (4 + (getFunctionsByPackage s (UpdateArgs.ofContext c).pkgName
      (UpdateArgs.ofContext c).pkgNamespace).length + k) false) s (Proc.start c)
    r.2.2 = plannedWrites host s c ∧
      ∀ newPkgMeta, r.1.phase = .done newPkgMeta → ∃ sent, plannedWrites host s c =
        .package sent newPkgMeta :: (getFunctionsByPackage s (UpdateArgs.ofContext c).pkgName
          (UpdateArgs.ofContext c).pkgNamespace).map fun fn => .function (fn.repin newPkgMeta.resourceVersion) := by
  dsimp only
  unfold plannedWrites Proc.start
  generalize UpdateArgs.ofContext c = args
  generalize fnListDef : getFunctionsByPackage s args.pkgName args.pkgNamespace = fnList
  rw [show 4 + fnList.length + k = fnList.length + 1 + k + 1 + 1 + 1 by omega]
  simp only [List.replicate_succ, run_cons]
  cases checked : args.check with
  | error err =>
    simp [Proc.step, run_finished _ _ _ ⟨_, .failed err⟩ trivial]
  | ok u =>
    cases got : s.packageGet args.pkgName args.pkgNamespace with
    | error e =>
      simp [Proc.step, got, run_finished _ _ _ ⟨_, .failed (.api "get package" e)⟩ trivial]
    | ok pkg =>
      have named : pkg.metadata.name = args.pkgName ∧ pkg.metadata.namespace = args.pkgNamespace :=
        Prod.mk.inj (Store.packageGet_ok got).2
      simp only [Proc.step, got, call_false, named, fnListDef, dropUnchanged_force]
      by_cases guard : args.force = false ∧ fnList.length > 1
      · simp [guard, fnListDef, Proc.step, run_finished _ _ _ ⟨_, .failed _⟩ trivial]
      · simp only [guard, if_false]
        cases made : updatePackageRecord host pkg (args.dropUnchanged pkg).envName
            (args.dropUnchanged pkg).envNamespace (args.dropUnchanged pkg).srcArchiveFiles
            (args.dropUnchanged pkg).deployArchiveFiles (args.dropUnchanged pkg).buildcmd false false with
        | error e =>
          simp [Update.updatePackage, made, run_finished _ _ _ ⟨_, .failed _⟩ trivial]
        | ok sent =>
          obtain ⟨srcA, deployA, sentDef, -⟩ := updatePackageRecord_ok made
          have accepted := Store.packageUpdate_of_packageGet sent got (by rw [sentDef]; rfl)
            (by rw [sentDef]; rfl)
          simp only [Bool.false_eq_true, if_false, Proc.step, Update.updatePackage, made, accepted,
            call_false, ok_bind, apiCheck_ok, pure, Except.pure]
          subst fnListDef
          rw [run_updateFunctions host _ _ _ _ _
            (fun fn member => by simpa using (mem_getFunctionsByPackage.mp member).1)
            (getFunctionsByPackage_nodup s _ _)]
          simp [guard]

theorem plannedWrites_guard (host : Host) (s : Store) (c : Context)
    (guard : c.bool "f" = false ∧
      (getFunctionsByPackage s (c.string "name") (c.string "pkgNamespace")).length > 1) :
    plannedWrites host s c = [] := by
  unfold plannedWrites
  dsimp only
  split
  · simp only [dropUnchanged_force, dropUnchanged_pkgName, dropUnchanged_pkgNamespace]
    exact if_pos guard
  · rfl

theorem run_done_eq_ideal (host : Host) (s : Store) (c : Context) (faults : List Bool)
    (newPkgMeta : ObjectMeta) (done : (Proc.run host faults s (Proc.start c)).1.phase = .done newPkgMeta) :
    Proc.run host faults s (Proc.start c) =
      Proc.run host (List.replicate faults.length false) s (Proc.start c) := by
  rcases run_truncates host faults s (Proc.start c) with same | ⟨⟨err, failed⟩, -⟩
  · exact same
  · rw [failed] at done
    cases done

theorem run_writes_prefix_of_plan (host : Host) (s : Store) (c : Context) (faults : List Bool) :
    (Proc.run host faults s (Proc.start c)).2.2 <+: plannedWrites host s c := by
  have planned := (run_ideal host s c faults.length).1
  have grow : (Proc.run host (List.replicate faults.length false) s (Proc.start c)).2.2 <+:
      (Proc.run host (List.replicate (4 + (getFunctionsByPackage s (UpdateArgs.ofContext c).pkgName
        (UpdateArgs.ofContext c).pkgNamespace).length + faults.length) false) s (Proc.start c)).2.2 := by
    rw [Nat.add_comm _ faults.length, List.replicate_add, run_append]
    exact List.prefix_append _ _
  rw [planned] at grow
  rcases run_truncates host faults s (Proc.start c) with same | ⟨-, pre⟩
  · rw [same]; exact grow
  · exact pre.trans grow

theorem run_done_writes {host : Host} {s : Store} {c : Context} {faults : List Bool}
    {newPkgMeta : ObjectMeta} (done : (Proc.run host faults s (Proc.start c)).1.phase = .done newPkgMeta) :
    ∃ sent, (Proc.run host faults s (Proc.start c)).2.2 =
      .package sent newPkgMeta :: (getFunctionsByPackage s (UpdateArgs.ofContext c).pkgName
        (UpdateArgs.ofContext c).pkgNamespace).map fun fn => .function (fn.repin newPkgMeta.resourceVersion) := by
  have same := run_done_eq_ideal host s c faults newPkgMeta done
  have ideal := run_ideal host s c faults.length
  have finished : (Proc.run host faults s (Proc.start c)).1.phase.Finished := by
    rw [done]; trivial
  have settled : Proc.run host (List.replicate (4 + (getFunctionsByPackage s (UpdateArgs.ofContext c).pkgName
      (UpdateArgs.ofContext c).pkgNamespace).length + faults.length) false) s (Proc.start c) =
      Proc.run host faults s (Proc.start c) := by
    rw [Nat.add_comm _ faults.length, List.replicate_add, run_append, ← same]
    simp [run_finished host _ _ _ finished]
  rw [settled] at ideal
  obtain ⟨sent, planned⟩ := ideal.2 newPkgMeta done
  exact ⟨sent, ideal.1.trans planned⟩

theorem package_write_of_plan {host : Host} {s : Store} {c : Context} {sent : Package}
    {ack : ObjectMeta} (planned : Write.package sent ack ∈ plannedWrites host s c) :
    ∃ pkg, s.packageGet (c.string "name") (c.string "pkgNamespace") = .ok pkg ∧
      (UpdateArgs.ofContext c).check = .ok () ∧
      updatePackageRecord host pkg ((UpdateArgs.ofContext c).dropUnchanged pkg).envName
        ((UpdateArgs.ofContext c).dropUnchanged pkg).envNamespace (c.stringSlice "src")
        (c.stringSlice "deploy") (c.string "buildcmd") false false = .ok sent := by
  unfold plannedWrites at planned
  dsimp only at planned
  split at planned
  · next pkg checked got =>
    split at planned
    · simp at planned
    · split at planned
      · simp at planned
      · next sent' made =>
        simp only [List.mem_cons, Write.package.injEq, List.mem_map, reduceCtorEq, and_false,
          exists_false, or_false] at planned
        obtain ⟨rfl, -⟩ := planned
        exact ⟨pkg, got, checked, made⟩
  · simp at planned

/-- Every run of `pkgUpdate`, whichever of its calls are lost, writes a prefix of
`plannedWrites` and leaves the store it found with exactly those writes applied; when a storage
step of the file an archive flag's inputs became fails, it writes no package record. -/
theorem pkgUpdate_writes_prefix_of_plan (host : Host) (s : Store) (c : Context) (faults : List Bool) :
    (Proc.run host faults s (Proc.start c)).2.2 <+: plannedWrites host s c ∧
      (Proc.run host faults s (Proc.start c)).2.1 =
        s.replay (Proc.run host faults s (Proc.start c)).2.2 ∧
      ∀ flag ∈ ["src", "deploy"], c.stringSlice flag ≠ [] → ∀ path size,
        Archive.LocalArchiveFile host (c.stringSlice flag) false path → host.fileSize path = .ok size →
        host.archiveLiteralSizeLimit ≤ size → Archive.StorageStepFails host path →
        ∀ sent ack, Write.package sent ack ∉ (Proc.run host faults s (Proc.start c)).2.2 := by
  refine ⟨run_writes_prefix_of_plan host s c faults, run_store host faults s _, ?_⟩
  intro flag named given path size ⟨archivePath, picked, located⟩ sized large fails sent ack written
  obtain ⟨pkg, -, -, made⟩ :=
    package_write_of_plan ((run_writes_prefix_of_plan host s c faults).subset written)
  have lost : ∀ m, archiveIfGiven host (c.stringSlice flag) false ≠ .ok m :=
    archiveIfGiven_fails given (Archive.createArchive_fails host picked
      (Archive.uploadArchive_fails host located sized large fails))
  rcases List.mem_pair.mp named with rfl | rfl
  · exact updatePackageRecord_fails (.inl lost) sent made
  · exact updatePackageRecord_fails (.inr lost) sent made

def helloPackage : Package :=
  ⟨⟨"hello", "default", 3⟩, ⟨⟨"python", "default"⟩, Archive.empty, Archive.empty, ""⟩, ⟨.succeeded, ""⟩⟩

/-- A function in namespace `other` whose reference names the package `hello` of `default`. -/
def crossFunction : Function :=
  ⟨⟨"fn", "other", 2⟩, ⟨⟨⟨"hello", "default", 3⟩, "main"⟩, ⟨"python", "default"⟩⟩⟩

def crossStore : Store := ⟨[helloPackage], [crossFunction], 3, by decide, by decide⟩

/-- A function of namespace `default` that uses the package `hello`. -/
def helloFunction : Function :=
  ⟨⟨"fn", "default", 2⟩, ⟨⟨⟨"hello", "default", 3⟩, "main"⟩, ⟨"python", "default"⟩⟩⟩

def helloStore : Store := ⟨[helloPackage], [helloFunction], 3, by decide, by decide⟩

def buildcmdContext : Context :=
  ⟨fun name => if name = "name" then some "hello" else if name = "buildcmd" then some "make" else none,
    fun _ => none, fun _ => none⟩

end FissionCli.PkgUpdate
