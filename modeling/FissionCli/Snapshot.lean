import FissionCli.Concurrent

/-! What `pkgUpdate` writes is computed from what it read: the package record it reads and the
functions it lists. The store accepts a write only when the resource version sent is the one
stored under its key, and stamps every write with a version newer than any it holds, so a record
read once and later found under its key with its version is still that record. Hence every write
that lands, however invocations interleave and whichever calls are lost, replaces exactly the
record its writer read: no invocation overwrites an accepted write with data from before it. -/

namespace FissionCli.Snapshot

open PkgUpdate Update Concurrent Resource

section Table

variable {α : Type} [Resource α] {r : Nat} {objs : List α} {o : α}

/-- A record `o` read from a table now at revision `r`: the record stored under its key and version. -/
def Unchanged (r : Nat) (objs : List α) (o : α) : Prop :=
  version o ≤ r ∧ ∀ x ∈ objs, key x = key o → version x = version o → x = o

theorem Unchanged.of_mem (fresh : Fresh r objs) (member : o ∈ objs) : Unchanged r objs o :=
  ⟨fresh.2 o member, fun _ stored same _ => List.inj_on_of_nodup_map fresh.1 stored member same⟩

theorem Unchanged.mono {r' : Nat} (unchanged : Unchanged r objs o) (le : r ≤ r') :
    Unchanged r' objs o :=
  ⟨unchanged.1.trans le, unchanged.2⟩

/-- A write stamped with the next revision keeps every record read before it unchanged. -/
theorem Unchanged.stamped (unchanged : Unchanged r objs o) (w : α) :
    Unchanged (r + 1) (replace objs (stamp w (r + 1))) o := by
  refine ⟨Nat.le_succ_of_le unchanged.1, fun x member same current => ?_⟩
  rcases mem_replace member with rfl | ⟨old, -⟩
  · have older := unchanged.1
    simp only [version_stamp] at current
    omega
  · exact unchanged.2 x old same current

/-- An admitted write with the key and version of a record read before replaces that record. -/
theorem Unchanged.current {sent : α} (unchanged : Unchanged r objs o) (unique : (objs.map key).Nodup)
    (admitted : admits objs sent = .ok ()) (sameKey : key sent = key o)
    (sameVersion : version sent = version o) : lookup objs (key o) = some o := by
  obtain ⟨cur, member, curKey, curVersion⟩ := admits_ok admitted
  obtain rfl := unchanged.2 cur member (curKey.trans sameKey) (curVersion.trans sameVersion)
  exact lookup_of_mem unique member

end Table

/-- What an invocation started with flags `c` holds from its calls, by where it stands. -/
def Holds (c : Context) (s : Store) (args : UpdateArgs) : Phase → Prop
  | .getPackage => args = UpdateArgs.ofContext c
  | .listFunctions pkg => args = (UpdateArgs.ofContext c).dropUnchanged pkg ∧
      Unchanged s.revision s.packages pkg
  | .updatePackage pkg fnList => args = (UpdateArgs.ofContext c).dropUnchanged pkg ∧
      Unchanged s.revision s.packages pkg ∧ ∀ fn ∈ fnList, Unchanged s.revision s.functions fn
  | .updateFunctions _ rest => ∀ fn ∈ rest, Unchanged s.revision s.functions fn
  | .done _ | .failed _ => True

section Holds

variable {c : Context} {s : Store} {args : UpdateArgs} {phase : Phase}

theorem holds_start (c : Context) (s : Store) :
    Holds c s (Proc.start c).args (Proc.start c).phase := by
  simp only [Proc.start]
  split <;> trivial

theorem Holds.writePackage (holds : Holds c s args phase) (sent : Package) :
    Holds c (s.writePackage sent) args phase := by
  cases phase with
  | listFunctions pkg => exact ⟨holds.1, holds.2.stamped sent⟩
  | updatePackage pkg fnList =>
    exact ⟨holds.1, holds.2.1.stamped sent, fun fn member => (holds.2.2 fn member).mono (Nat.le_succ _)⟩
  | updateFunctions _ rest => exact fun fn member => (holds fn member).mono (Nat.le_succ _)
  | getPackage | done _ | failed _ => exact holds

theorem Holds.writeFunction (holds : Holds c s args phase) (sent : Function) :
    Holds c (s.writeFunction sent) args phase := by
  cases phase with
  | listFunctions pkg => exact ⟨holds.1, holds.2.mono (Nat.le_succ _)⟩
  | updatePackage pkg fnList =>
    exact ⟨holds.1, holds.2.1.mono (Nat.le_succ _), fun fn member => (holds.2.2 fn member).stamped sent⟩
  | updateFunctions _ rest => exact fun fn member => (holds fn member).stamped sent
  | getPackage | done _ | failed _ => exact holds

theorem Holds.bystander {host : Host} {p p' : Proc} {s' : Store} {w : Option Write}
    (moves : Moves host s p p' s' w) (holds : Holds c s args phase) : Holds c s' args phase := by
  rw [moves.store]
  rcases w with _ | ⟨sent, ack⟩ | sent
  · exact holds
  · exact holds.writePackage sent
  · exact holds.writeFunction sent

theorem Holds.moves {host : Host} {p p' : Proc} {s' : Store} {w : Option Write}
    (moves : Moves host s p p' s' w) (holds : Holds c s p.args p.phase) : Holds c s' p'.args p'.phase := by
  cases moves with
  | fail err => trivial
  | stay _ => exact holds
  | read pkg phase got =>
    rw [phase] at holds
    refine ⟨by rw [holds], Unchanged.of_mem s.packages_fresh (Store.packageGet_ok got).1⟩
  | list pkg phase _ =>
    rw [phase] at holds
    exact ⟨holds.1, holds.2, fun fn member =>
      Unchanged.of_mem s.functions_fresh (mem_getFunctionsByPackage.mp member).1⟩
  | writePackage pkg sent fnList phase _ _ =>
    rw [phase] at holds
    exact fun fn member => (holds.2.2 fn member).mono (Nat.le_succ _)
  | finish newPkgMeta phase => trivial
  | writeFunction newPkgMeta fn rest phase _ =>
    rw [phase] at holds
    exact fun g member => (holds g (List.mem_cons_of_mem fn member)).stamped _

variable {p : Proc}

/-- The package write of an invocation replaces the record it read, changed by its own flags. -/
theorem Holds.package_current {host : Host} {pkg sent : Package} {fnList : List Function}
    (holds : Holds c s p.args p.phase) (phase : p.phase = .updatePackage pkg fnList)
    (made : updatePackageRecord host pkg p.args.envName p.args.envNamespace p.args.srcArchiveFiles
      p.args.deployArchiveFiles p.args.buildcmd false false = .ok sent)
    (admitted : admits s.packages sent = .ok ()) :
    lookup s.packages (key sent) = some pkg ∧ p.args = (UpdateArgs.ofContext c).dropUnchanged pkg := by
  rw [phase] at holds
  obtain ⟨srcA, deployA, rfl, -⟩ := updatePackageRecord_ok made
  exact ⟨holds.2.1.current s.packages_fresh.1 admitted rfl rfl, holds.1⟩

/-- The function write of an invocation re-pins the record it listed. -/
theorem Holds.function_current {newPkgMeta : ObjectMeta} {fn : Function} {rest : List Function}
    (holds : Holds c s p.args p.phase) (phase : p.phase = .updateFunctions newPkgMeta (fn :: rest))
    (admitted : admits s.functions (fn.repin newPkgMeta.resourceVersion) = .ok ()) :
    lookup s.functions (key fn) = some fn := by
  rw [phase] at holds
  exact (holds fn (List.mem_cons_self fn rest)).current s.functions_fresh.1 admitted rfl rfl

end Holds

variable {ι : Type} [DecidableEq ι]

def AllHold (c : ι → Context) (sys : System ι) : Prop :=
  ∀ i, Holds (c i) sys.store (sys.procs i).args (sys.procs i).phase

theorem AllHold.step {c : ι → Context} {sys : System ι} (host : Host) (i : ι) (fault : Bool)
    (holds : AllHold c sys) : AllHold c (sys.step host i fault) := by
  intro j
  have moves := step_moves host fault sys.store (sys.procs i)
  simp only [step_store, step_procs]
  split
  · next same => subst same; exact (holds j).moves moves
  · exact (holds j).bystander moves

theorem AllHold.run {c : ι → Context} (host : Host) (sched : List (ι × Bool)) {sys : System ι}
    (holds : AllHold c sys) : AllHold c (sys.run host sched) := by
  induction sched generalizing sys with
  | nil => exact holds
  | cons call sched ih => exact ih (holds.step host call.1 call.2)

/-- In every interleaving of `package update` invocations, with any calls lost, each accepted write
replaces exactly the record its writer read. -/
theorem pkgUpdate_writes_over_current_records (host : Host) (s : Store) (c : ι → Context)
    (sched : List (ι × Bool)) (i : ι) (fault : Bool) :
    let sys := (System.start s c).run host sched
    let write := ((sys.procs i).step host fault sys.store).2.2
    (∀ sent ack, write = some (.package sent ack) → ∃ pkg,
      lookup sys.store.packages (key sent) = some pkg ∧
      let args := (UpdateArgs.ofContext (c i)).dropUnchanged pkg
      updatePackageRecord host pkg args.envName args.envNamespace args.srcArchiveFiles
        args.deployArchiveFiles args.buildcmd false false = .ok sent) ∧
    (∀ sent, write = some (.function sent) → ∃ fn,
      lookup sys.store.functions (key sent) = some fn ∧
      sent = fn.repin sent.spec.package.packageRef.resourceVersion) := by
  dsimp only
  have holds : AllHold c ((System.start s c).run host sched) :=
    AllHold.run host sched fun j => holds_start (c j) s
  generalize (System.start s c).run host sched = sys at holds
  have moves := step_moves host fault sys.store (sys.procs i)
  generalize (sys.procs i).step host fault sys.store = r at moves
  obtain ⟨p', s', w⟩ := r
  refine ⟨fun sent ack wrote => ?_, fun sent wrote => ?_⟩
  · subst wrote
    cases moves with
    | writePackage pkg sent fnList phase made admitted =>
      obtain ⟨current, args⟩ := (holds i).package_current phase made admitted
      exact ⟨pkg, current, by rw [← args]; exact made⟩
  · subst wrote
    cases moves with
    | writeFunction newPkgMeta fn rest phase admitted =>
      exact ⟨fn, (holds i).function_current phase admitted, rfl⟩

end FissionCli.Snapshot
