import FissionCli.Snapshot
import FissionCli.Create
import FissionCli.Delete
import FissionCli.FlagParser
import Mathlib.Logic.Relation

/-! Package commands run one after another against the controller, as a session of the CLI
issues them: each invocation passes `cliHook`, which `NewCliApp` sets as `app.Before`, then runs
one of the `package` subcommands. What each command does to the store is a sequence of a few
effects: a package record written, a stored function re-pinned, a package created, and a package
deleted that no function listed in the namespace it is deleted from references (any package,
when `-f` forces it). From these alone: no session changes a function other than in its package
pin, and no session without a forced delete leaves a function whose package is gone; the same
holds of updates running at once, their calls interleaved in any order. Last, a `package create`
undone by a `package delete --name` of what it made. -/

namespace FissionCli.Session

open PkgUpdate Update Snapshot Delete Create FlagParser

/-- The `package` subcommands; `update` with the calls of its run that the network loses. -/
inductive Command where
  | create
  | update (faults : List Bool)
  | rebuild
  | getsrc
  | getdeploy
  | info
  | list
  | delete
  deriving DecidableEq, Repr

/-- The store after a command; the readers change nothing. -/
def Command.run (host : Host) (s : Store) (c : Context) : Command → Store
  | .create => match pkgCreate host s c with
    | .ok (_, s') => s'
    | .error _ => s
  | .update faults => (Proc.run host faults s (Proc.start c)).2.1
  | .rebuild => match pkgRebuild host s c with
    | .ok (_, s') => s'
    | .error _ => s
  | .delete => deleteStore s c
  | .getsrc | .getdeploy | .info | .list => s

/-- One run of the CLI: its host, the arguments `cliHook` checks, its flags and its command. -/
structure Invocation where
  host : Host
  args : List String
  context : Context
  command : Command

/-- `cliHook` runs first; a parse error of the arguments stops the CLI before the command. -/
def Invocation.run (s : Store) (inv : Invocation) : Store :=
  match cliHook inv.args with
  | some (.ok ()) => inv.command.run inv.host s inv.context
  | _ => s

def runSession (s : Store) (session : List Invocation) : Store := session.foldl Invocation.run s

theorem cliHook_eq (args : List String) :
    cliHook args = some (if overfilledFlags args = [] then .ok ()
      else .error (.log (unableToParse (overfilledFlags args)))) := by
  by_cases given : args = []
  · subst given
    rfl
  have loop := errorFlagsOf_suffix [] args
  simp only [List.nil_append, List.length_nil, Nat.zero_add] at loop
  by_cases clean : overfilledFlags args = [] <;>
    simp [cliHook, flagValueParser, given, loop, List.length_pos, clean, Except.mapError]

/-- `cliHook` stops an invocation that gives some flag two or more values, as an expanded wildcard
does, with the error naming those flags; any other invocation runs its command. -/
theorem invocation_gated_by_cliHook (s : Store) (inv : Invocation) :
    cliHook inv.args = some (if overfilledFlags inv.args = [] then .ok ()
        else .error (.log (unableToParse (overfilledFlags inv.args)))) ∧
      Invocation.run s inv =
        if overfilledFlags inv.args = [] then inv.command.run inv.host s inv.context else s := by
  refine ⟨cliHook_eq inv.args, ?_⟩
  rw [Invocation.run, cliHook_eq]
  split_ifs <;> rfl

/-- An archive a command may put in a package record. -/
def Placed (s : Store) (a : Archive) : Prop :=
  a.WellFormed ∨ a = Archive.empty ∨ ∃ pkg ∈ s.packages, a = pkg.spec.source ∨ a = pkg.spec.deployment

/-- One change a package command makes to the store; `forced` allows deleting a used package. -/
inductive Effect (forced : Bool) (s : Store) : Store → Prop where
  | writePackage (sent : Package) : Placed s sent.spec.source → Placed s sent.spec.deployment →
      Effect forced s (s.writePackage sent)
  | repin (fn : Function) (v : Nat) : fn ∈ s.functions → Effect forced s (s.writeFunction (fn.repin v))
  | create {pkg : Package} {meta : ObjectMeta} {s' : Store} : s.packageCreate pkg = .ok (meta, s') →
      Placed s pkg.spec.source → Placed s pkg.spec.deployment → Effect forced s s'
  | delete {name ns : String} {s' : Store} : s.packageDelete name ns = .ok s' →
      getFunctionsByPackage s name ns = [] ∨ forced = true → Effect forced s s'

abbrev Effects (forced : Bool) : Store → Store → Prop := Relation.ReflTransGen (Effect forced)

section Effects

variable {forced : Bool} {s s' : Store}

/-- A function as no package command changes it. -/
def unpinned (fn : Function) : Function := Resource.stamp (fn.repin 0) 0

@[simp] theorem unpinned_stamp_repin (fn : Function) (v r : Nat) :
    unpinned (Resource.stamp (fn.repin v) r) = unpinned fn := rfl

theorem Effect.unpinned_functions (effect : Effect forced s s') :
    s'.functions.map unpinned = s.functions.map unpinned := by
  cases effect with
  | writePackage sent _ _ => rfl
  | repin fn v stored =>
    simp only [Store.writeFunction_functions, replace, List.map_map]
    refine List.map_congr_left fun x member => ?_
    by_cases same : key x = key fn
    · obtain rfl := List.inj_on_of_nodup_map s.functions_fresh.1 member stored same
      simp
    · simp [same]
  | create created _ _ => rw [(Store.packageCreate_ok created).2.2.1]
  | delete deleted _ => rw [(Store.packageDelete_ok deleted).2.2]

theorem Effects.unpinned_functions (effects : Effects forced s s') :
    s'.functions.map unpinned = s.functions.map unpinned := by
  induction effects with
  | refl => rfl
  | tail _ effect ih => rw [effect.unpinned_functions, ih]

/-- Every function's package, by the name its reference gives, is stored in its namespace. -/
def References (s : Store) : Prop :=
  ∀ fn ∈ s.functions, (fn.spec.package.packageRef.name, fn.metadata.namespace) ∈ s.packages.map key

instance : DecidablePred References := fun s => inferInstanceAs (Decidable (∀ fn ∈ s.functions, _))

theorem Effect.references (effect : Effect false s s') (refs : References s) : References s' := by
  cases effect with
  | writePackage sent _ _ => simpa [References] using refs
  | repin fn v stored =>
    intro g member
    rcases mem_replace member with rfl | ⟨old, -⟩
    · exact refs fn stored
    · exact refs g old
  | create created _ _ =>
    obtain ⟨-, packages, functions, -⟩ := Store.packageCreate_ok created
    intro g member
    rw [functions] at member
    rw [packages, List.map_append]
    exact List.mem_append_left _ (refs g member)
  | @delete name ns _ deleted unused =>
    obtain ⟨-, packages, functions⟩ := Store.packageDelete_ok deleted
    intro g member
    rw [functions] at member
    obtain ⟨pkg, stored, same⟩ := List.mem_map.mp (refs g member)
    rw [packages]
    refine List.mem_map.mpr ⟨pkg, List.mem_filter.mpr ⟨stored, decide_eq_true fun target => ?_⟩, same⟩
    obtain ⟨named, spaced⟩ := Prod.mk.inj (same.symm.trans target)
    have listed : g ∈ getFunctionsByPackage s name ns :=
      mem_getFunctionsByPackage.mpr ⟨member, by simp [inNamespace, Resource.objectMeta, spaced], named⟩
    rw [unused.resolve_right Bool.false_ne_true] at listed
    exact List.not_mem_nil g listed

theorem Effects.references (effects : Effects false s s') (refs : References s) : References s' := by
  induction effects with
  | refl => exact refs
  | tail _ effect ih => exact effect.references ih

def ArchiveFine (a : Archive) : Prop := a = Archive.empty ∨ a.WellFormed

/-- Every archive of every stored package is the zero archive or well formed. -/
def ArchivesFine (s : Store) : Prop :=
  ∀ pkg ∈ s.packages, ArchiveFine pkg.spec.source ∧ ArchiveFine pkg.spec.deployment

instance : DecidablePred Archive.WellFormed := fun _ => inferInstanceAs (Decidable (_ ∨ _))

instance : DecidablePred ArchiveFine := fun _ => inferInstanceAs (Decidable (_ ∨ _))

instance : DecidablePred ArchivesFine := fun s => inferInstanceAs (Decidable (∀ pkg ∈ s.packages, _))

theorem Placed.fine {a : Archive} (fine : ArchivesFine s) (placed : Placed s a) : ArchiveFine a := by
  rcases placed with made | empty | ⟨pkg, stored, same | same⟩
  · exact .inr made
  · exact .inl empty
  · exact same ▸ (fine pkg stored).1
  · exact same ▸ (fine pkg stored).2

theorem Effect.archivesFine (effect : Effect forced s s') (fine : ArchivesFine s) : ArchivesFine s' := by
  cases effect with
  | writePackage sent source deployment =>
    intro pkg member
    rcases mem_replace member with rfl | ⟨old, -⟩
    · exact ⟨source.fine fine, deployment.fine fine⟩
    · exact fine pkg old
  | repin fn v _ => exact fine
  | create created source deployment =>
    intro pkg member
    rw [(Store.packageCreate_ok created).2.1] at member
    rcases List.mem_append.mp member with old | added
    · exact fine pkg old
    · rw [List.mem_singleton.mp added]
      exact ⟨source.fine fine, deployment.fine fine⟩
  | delete deleted _ =>
    intro pkg member
    rw [(Store.packageDelete_ok deleted).2.1] at member
    exact fine pkg (List.mem_of_mem_filter member)

theorem Effects.archivesFine (effects : Effects forced s s') (fine : ArchivesFine s) :
    ArchivesFine s' := by
  induction effects with
  | refl => exact fine
  | tail _ effect ih => exact effect.archivesFine ih

theorem placed_of_kept {a : Archive} {pkg : Package} (pick : PackageSpec → Archive)
    (picks : pick = PackageSpec.source ∨ pick = PackageSpec.deployment) (stored : pkg ∈ s.packages)
    (made : a.WellFormed ∨ a = pick pkg.spec) : Placed s a := by
  refine made.imp_right fun kept => .inr ⟨pkg, stored, ?_⟩
  rcases picks with rfl | rfl
  · exact .inl kept
  · exact .inr kept

theorem placed_of_made {made : Option (Archive × String)} (wellFormed : ∀ a ∈ made, a.1.WellFormed) :
    Placed s ((made.map (·.1)).getD Archive.empty) := by
  rcases made with _ | a
  · exact .inr (.inl rfl)
  · exact .inl (wellFormed a rfl)

end Effects

section Commands

variable {forced : Bool} (host : Host) (c : Context)

theorem Moves.effects {s s' : Store} {p p' : Proc} {w : Option Write}
    (moves : Moves host s p p' s' w) (holds : Holds c s p.args p.phase) : Effects forced s s' := by
  cases moves
  case writePackage pkg sent _ phase made admitted =>
    have stored := (lookup_some (holds.package_current phase made admitted).1).1
    obtain ⟨source, deployment⟩ := updatePackageRecord_archives made
    exact .single (.writePackage sent (placed_of_kept _ (.inl rfl) stored source)
      (placed_of_kept _ (.inr rfl) stored deployment))
  case writeFunction newPkgMeta fn rest phase admitted =>
    exact .single (.repin fn _ (lookup_some (holds.function_current phase admitted)).1)
  all_goals exact .refl

theorem run_effects (faults : List Bool) {s : Store} {p : Proc} (holds : Holds c s p.args p.phase) :
    Effects forced s (Proc.run host faults s p).2.1 := by
  induction faults generalizing s p with
  | nil => exact .refl
  | cons fault faults ih =>
    have moves := step_moves host fault s p
    rw [run_cons]
    exact (Moves.effects host c moves holds).trans (ih (holds.moves moves))

theorem sweptStore_effects (pkgNamespace : String) (s : Store) (pkgs : List Package) :
    Effects forced s (sweptStore pkgNamespace s pkgs) := by
  induction pkgs generalizing s with
  | nil => exact .refl
  | cons pkg rest ih =>
    simp only [sweptStore]
    split
    · next orphan =>
      split
      · next s' deleted => exact .head (.delete deleted (.inl (List.length_eq_zero.mp orphan))) (ih s')
      · exact .refl
    · exact ih s

/-- Only a delete with `-f` and `--name` may delete a package some function lists. -/
theorem deleteStore_effects (s : Store)
    (allowed : c.bool "f" = false ∨ c.bool "orphan" = true ∨ forced = true) :
    Effects forced s (deleteStore s c) := by
  unfold deleteStore
  split
  · exact sweptStore_effects _ _ _
  · next notSweep =>
    split
    · next s' out ran =>
      rcases pkgDelete_ok_cases ran with rfl | ⟨kept, deleted, guard⟩ | ⟨unnamed, orphans, -⟩
      · exact .refl
      · refine .single (.delete deleted ?_)
        rcases allowed with unforced | orphans | yes
        · exact .inl (guard.resolve_left (by simp [unforced]))
        · simp [kept] at orphans
        · exact .inr yes
      · exact absurd ⟨unnamed, orphans⟩ notSweep
    · exact .refl

theorem create_effects (s : Store) : Effects forced s (Command.create.run host s c) := by
  simp only [Command.run]
  split
  · next meta s' ran =>
    obtain ⟨-, -, direct⟩ := pkgCreate_ok host ran
    obtain ⟨deployed, deployMade, sourced, srcMade, saved⟩ := by
      simpa only [createPackage, bind_eq_ok] using direct
    simp only [savePackage, String.length_empty, gt_iff_lt, Nat.lt_irrefl, if_false,
      apiCheck_eq_ok] at saved
    exact .single (.create saved (placed_of_made (archiveAndName_wellFormed host srcMade))
      (placed_of_made (archiveAndName_wellFormed host deployMade)))
  · exact .refl

theorem rebuild_effects (s : Store) : Effects forced s (Command.rebuild.run host s c) := by
  simp only [Command.run]
  split
  · next meta s' ran =>
    unfold pkgRebuild at ran
    dsimp only at ran
    split at ran
    · simp at ran
    · obtain ⟨pkg, got, ran⟩ := bind_eq_ok.mp (by simpa only [ok_bind, pure_eq_ok] using ran)
      split at ran
      · simp at ran
      · obtain ⟨⟨sent, newPkgMeta, s₁⟩, ok, ran⟩ :=
          bind_eq_ok.mp (by simpa only [ok_bind, pure_eq_ok] using ran)
        cases ran
        obtain ⟨-, made, written⟩ := updatePackage_ok ok
        have stored := (Store.packageGet_ok (apiCheck_eq_ok.mp got)).1
        obtain ⟨source, deployment⟩ := updatePackageRecord_archives made
        rw [(Store.update_ok written).2.2]
        exact .single (.writePackage sent (placed_of_kept _ (.inl rfl) stored source)
          (placed_of_kept _ (.inr rfl) stored deployment))
  · exact .refl

theorem Command.effects (cmd : Command) (s : Store)
    (allowed : cmd = .delete → c.bool "f" = false ∨ c.bool "orphan" = true ∨ forced = true) :
    Effects forced s (cmd.run host s c) := by
  cases cmd with
  | create => exact create_effects host c s
  | update faults => exact run_effects host c faults (holds_start c s)
  | rebuild => exact rebuild_effects host c s
  | delete => exact deleteStore_effects c s (allowed rfl)
  | getsrc | getdeploy | info | list => exact .refl

end Commands

section Sessions

variable {forced : Bool}

theorem Invocation.effects (inv : Invocation) (s : Store)
    (allowed : inv.command = .delete →
      inv.context.bool "f" = false ∨ inv.context.bool "orphan" = true ∨ forced = true) :
    Effects forced s (Invocation.run s inv) := by
  unfold Invocation.run
  split
  · exact inv.command.effects inv.host inv.context s allowed
  · exact .refl

theorem session_effects (s : Store) (session : List Invocation)
    (allowed : ∀ inv ∈ session, inv.command = .delete →
      inv.context.bool "f" = false ∨ inv.context.bool "orphan" = true ∨ forced = true) :
    Effects forced s (runSession s session) := by
  induction session generalizing s with
  | nil => exact .refl
  | cons inv rest ih =>
    exact (inv.effects s (allowed inv (List.mem_cons_self inv rest))).trans
      (ih _ fun other member => allowed other (List.mem_cons_of_mem inv member))

end Sessions

/-- No session of package commands, with any flags, lost calls or forced deletes, changes a
function other than in its package pin. -/
theorem session_changes_functions_only_in_pins (s : Store) (session : List Invocation) :
    (runSession s session).functions.map unpinned = s.functions.map unpinned :=
  Effects.unpinned_functions (session_effects s session fun _ _ _ => .inr (.inr rfl) : Effects true _ _)

/-- No session without a forced delete leaves a function without its package. -/
theorem session_keeps_references (s : Store) (session : List Invocation)
    (unforced : ∀ inv ∈ session, inv.command = .delete →
      inv.context.bool "f" = false ∨ inv.context.bool "orphan" = true)
    (refs : References s) : References (runSession s session) :=
  Effects.references (session_effects s session fun inv member deleting =>
    (unforced inv member deleting).imp_right .inl) refs

/-- No session of package commands stores an archive that is neither empty nor well formed. -/
theorem session_keeps_archives_wellFormed (s : Store) (session : List Invocation)
    (fine : ArchivesFine s) : ArchivesFine (runSession s session) :=
  Effects.archivesFine (session_effects s session fun _ _ _ => .inr (.inr rfl) : Effects true _ _) fine

section Concurrent

open Concurrent

variable {ι : Type} [DecidableEq ι] {forced : Bool}

/-- Every call of any invocation of concurrent updates is an effect. -/
theorem system_effects (host : Host) (c : ι → Context) (sched : List (ι × Bool)) {sys : System ι}
    (holds : AllHold c sys) : Effects forced sys.store (sys.run host sched).store := by
  induction sched generalizing sys with
  | nil => exact .refl
  | cons call sched ih =>
    have moves := step_moves host call.2 sys.store (sys.procs call.1)
    exact (Moves.effects host (c call.1) moves (holds call.1)).trans (ih (holds.step host call.1 call.2))

/-- The invariants of a session hold of `package update` invocations running at once, however
their calls interleave and whichever are lost. -/
theorem pkgUpdate_concurrent_keeps_invariants (host : Host) (s : Store) (c : ι → Context)
    (sched : List (ι × Bool)) :
    let s' := ((System.start s c).run host sched).store
    s'.functions.map unpinned = s.functions.map unpinned ∧ (References s → References s') ∧
      (ArchivesFine s → ArchivesFine s') := by
  have holds : AllHold c (System.start s c) := fun j => holds_start (c j) s
  have effects : Effects false s ((System.start s c).run host sched).store := system_effects host c sched holds
  exact ⟨effects.unpinned_functions, effects.references, effects.archivesFine⟩

end Concurrent

/-- `package update --name hello --buildcmd make`, then `package delete --orphan`. -/
def updateThenSweep : List Invocation :=
  [⟨zipHost, ["package", "update", "--name", "hello", "--buildcmd", "make"], buildcmdContext,
      .update [false, false, false, false, false]⟩,
    ⟨zipHost, ["package", "delete", "--orphan"], deleteOrphansContext, .delete⟩]

theorem session_keeps_references_sample :
    (∀ inv ∈ updateThenSweep, inv.command = .delete →
      inv.context.bool "f" = false ∨ inv.context.bool "orphan" = true) ∧
      References helloStore ∧ References (runSession helloStore updateThenSweep) :=
  ⟨by decide, by decide, session_keeps_references helloStore updateThenSweep (by decide) (by decide)⟩

theorem session_keeps_archives_wellFormed_sample :
    ArchivesFine helloStore ∧ ArchivesFine (runSession helloStore updateThenSweep) :=
  ⟨by decide, session_keeps_archives_wellFormed helloStore updateThenSweep (by decide)⟩

/-- `package delete --name` of what `package create` made restores the store, unless a function
already names the package and `-f` is not given. -/
theorem pkgCreate_then_pkgDelete (host : Host) (s s' : Store) (c c' : Context) (meta : ObjectMeta)
    (created : pkgCreate host s c = .ok (meta, s'))
    (named : c'.string "name" = meta.name) (spaced : c'.string "pkgNamespace" = meta.namespace)
    (single : c'.bool "orphan" = false) (nonempty : meta.name ≠ "") :
    if c'.bool "f" = false ∧ getFunctionsByPackage s meta.name meta.namespace ≠ [] then
      pkgDelete s' c' = .error (.log "Package is used by at least one function, use -f to force delete")
    else ∃ s'', pkgDelete s' c' = .ok (s'', ["Package '" ++ meta.name ++ "' deleted"]) ∧
      s''.packages = s.packages ∧ s''.functions = s.functions := by
  obtain ⟨-, -, direct⟩ := pkgCreate_ok host created
  obtain ⟨pkg, packages, functions, -, stamped, -⟩ := createPackage_ok host direct
  have pkgKey : key pkg = (meta.name, meta.namespace) := by simp [key, Resource.objectMeta, stamped]
  have stored : pkg ∈ s'.packages := by simp [packages]
  have found : s'.packageGet meta.name meta.namespace = .ok pkg := by
    rw [Store.packageGet, ← pkgKey, lookup_of_mem s'.packages_fresh.1 stored]
  have fresh : ∀ p ∈ s.packages, key p ≠ key pkg := by
    have unique := s'.packages_fresh.1
    rw [packages, List.map_append, List.nodup_append] at unique
    exact fun p member same => unique.2.2 (List.mem_map_of_mem key member) (by simp [same])
  obtain ⟨s'', deleted, left, same⟩ := Store.packageDelete_of_mem stored
  rw [stamped] at deleted
  have restored : s''.packages = s.packages := by
    rw [left, packages, List.filter_append, List.filter_eq_self.mpr (by simpa using fresh)]
    simp
  rw [← getFunctionsByPackage_congr functions]
  split_ifs with used
  · simp [pkgDelete, named, spaced, single, nonempty, found, used, List.length_pos]
    rfl
  · refine ⟨s'', ?_, restored, same.trans functions⟩
    rw [ne_eq] at used
    simp [pkgDelete, named, spaced, single, nonempty, found, used, deletePackage, deleted, List.length_pos,
      Except.mapError]

theorem pkgCreate_then_pkgDelete_sample :
    ∃ meta s', pkgCreate zipHost helloStore srcCreateContext = .ok (meta, s') ∧ meta.name = "-" ∧
      if (Context.named "-").bool "f" = false ∧
          getFunctionsByPackage helloStore meta.name meta.namespace ≠ [] then
        pkgDelete s' (Context.named "-") =
          .error (.log "Package is used by at least one function, use -f to force delete")
      else ∃ s'', pkgDelete s' (Context.named "-") = .ok (s'', ["Package '" ++ meta.name ++ "' deleted"]) ∧
        s''.packages = helloStore.packages ∧ s''.functions = helloStore.functions :=
  ⟨_, _, rfl, rfl, pkgCreate_then_pkgDelete zipHost helloStore _ srcCreateContext (Context.named "-") _ rfl
    rfl rfl rfl (by decide)⟩

end FissionCli.Session
