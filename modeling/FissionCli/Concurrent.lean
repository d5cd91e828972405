import FissionCli.PkgUpdate
import Mathlib.Logic.Function.Basic

/-! Invocations of `pkgUpdate` on one package running at once against one store, their calls
interleaved in any order and any of them lost. The store refuses a write whose resource version
is stale, so the invocation whose package write is the last to land has listed the functions
after every other fan-out could still land: when it completes, every function it lists is
pinned to the package's final version. -/

namespace FissionCli.Concurrent

open PkgUpdate Update

/-- Invocations of `pkgUpdate`, named by `ι`, and the store they share. -/
structure System (ι : Type) where
  store : Store
  procs : ι → Proc

variable {ι : Type} [DecidableEq ι]

/-- Invocation `i` makes its next call; `fault` is that call lost. -/
def System.step (host : Host) (sys : System ι) (i : ι) (fault : Bool) : System ι :=
  ⟨((sys.procs i).step host fault sys.store).2.1,
    Function.update sys.procs i ((sys.procs i).step host fault sys.store).1⟩

def System.run (host : Host) (sys : System ι) : List (ι × Bool) → System ι
  | [] => sys
  | (i, fault) :: sched => (sys.step host i fault).run host sched

def System.start (s : Store) (c : ι → Context) : System ι := ⟨s, fun i => Proc.start (c i)⟩

@[simp] theorem step_store (host : Host) (sys : System ι) (i : ι) (fault : Bool) :
    (sys.step host i fault).store = ((sys.procs i).step host fault sys.store).2.1 := rfl

@[simp] theorem run_nil (host : Host) (sys : System ι) : sys.run host [] = sys := rfl

@[simp] theorem run_cons (host : Host) (sys : System ι) (i : ι) (fault : Bool)
    (sched : List (ι × Bool)) : sys.run host ((i, fault) :: sched) = (sys.step host i fault).run host sched :=
  rfl

theorem step_procs (host : Host) (sys : System ι) (i j : ι) (fault : Bool) :
    (sys.step host i fault).procs j =
      if j = i then ((sys.procs i).step host fault sys.store).1 else sys.procs j := by
  by_cases same : j = i
  · subst same; simp [System.step]
  · simp [System.step, same, Function.update_noteq same]

/-- What no `pkgUpdate` changes of a function. -/
def entry (fn : Function) : (String × String) × String := (key fn, fn.spec.package.packageRef.name)

@[simp] theorem entry_stamp (fn : Function) (v : Nat) : entry (Resource.stamp fn v) = entry fn := rfl

@[simp] theorem entry_repin (fn : Function) (v : Nat) : entry (fn.repin v) = entry fn := rfl

theorem map_entry_replace {fs : List Function} {o : Function}
    (agree : ∀ x ∈ fs, key x = key o → entry x = entry o) :
    (replace fs o).map entry = fs.map entry := by
  simp only [replace, List.map_map]
  refine List.map_congr_left fun x member => ?_
  by_cases same : key x = key o
  · simp [same, agree x member same]
  · simp [same]

theorem entry_eq_of_key_eq {skel : List ((String × String) × String)} {f g : Function}
    (unique : (skel.map Prod.fst).Nodup) (hf : entry f ∈ skel) (hg : entry g ∈ skel)
    (same : key f = key g) : entry f = entry g :=
  List.inj_on_of_nodup_map unique hf hg same

/-- A function written after the package write numbered `newPkgMeta`, and pinned to it. -/
def Pinned (newPkgMeta : ObjectMeta) (fn : Function) : Prop :=
  fn.spec.package.packageRef.resourceVersion = newPkgMeta.resourceVersion ∧
    newPkgMeta.resourceVersion < version fn

section Invariant

variable (n ns : String)

/-- A function the invocations on `(n, ns)` list. -/
def Matches (fn : Function) : Prop := inNamespace ns fn = true ∧ fn.spec.package.packageRef.name = n

def packageVersion (s : Store) : Option Nat := (lookup s.packages (n, ns)).map version

/-- Each function listed for the package is ahead of the write's fan-out or pinned by it. -/
def Covered (s : Store) (newPkgMeta : ObjectMeta) (rest : List Function) : Prop :=
  packageVersion n ns s = some newPkgMeta.resourceVersion →
    ∀ fn ∈ s.functions, Matches n ns fn → key fn ∈ rest.map key ∨ Pinned newPkgMeta fn

/-- The package write numbered `newPkgMeta` landed, and nothing older replaced it since. -/
def Landed (s : Store) (newPkgMeta : ObjectMeta) : Prop :=
  ∃ v, packageVersion n ns s = some v ∧ newPkgMeta.resourceVersion ≤ v

variable (skel : List ((String × String) × String))

def Listed (bound : Nat) (fnList : List Function) : Prop :=
  ∀ fn ∈ fnList, entry fn ∈ skel ∧ version fn < bound

/-- What an invocation on `(n, ns)` knows from its calls, by where it stands. -/
def Knows (s : Store) : Phase → Prop
  | .getPackage | .failed _ => True
  | .listFunctions pkg => key pkg = (n, ns)
  | .updatePackage pkg fnList => key pkg = (n, ns) ∧ Listed skel (s.revision + 1) fnList ∧
      ∀ fn, entry fn ∈ skel → Matches n ns fn → key fn ∈ fnList.map key
  | .updateFunctions newPkgMeta rest => Listed skel newPkgMeta.resourceVersion rest ∧
      Landed n ns s newPkgMeta ∧ Covered n ns s newPkgMeta rest
  | .done newPkgMeta => Landed n ns s newPkgMeta ∧ Covered n ns s newPkgMeta []

def Local (s : Store) (p : Proc) : Prop :=
  p.args.pkgName = n ∧ p.args.pkgNamespace = ns ∧ Knows n ns skel s p.phase

/-- The invariant of invocations on `(n, ns)` whose function entries were `skel`. -/
structure Invariant (sys : System ι) : Prop where
  /-- No write changes a function's key or the package name it references. -/
  skeleton : sys.store.functions.map entry = skel
  /-- Every invocation's local facts hold against the shared store. -/
  procs : ∀ i, Local n ns skel sys.store (sys.procs i)

theorem matches_of_entry {f g : Function} (same : entry f = entry g) (holds : Matches n ns g) :
    Matches n ns f := by
  simp only [entry, key, Prod.mk.injEq] at same
  simpa [Matches, inNamespace, same.1.2, same.2] using holds

theorem packageVersion_le {s : Store} {v : Nat} (found : packageVersion n ns s = some v) :
    v ≤ s.revision := by
  obtain ⟨pkg, hit, rfl⟩ := Option.map_eq_some'.mp found
  exact s.packages_fresh.2 pkg (lookup_some hit).1

theorem packageVersion_writePackage {s : Store} {sent : Package}
    (admitted : admits s.packages sent = .ok ()) (target : key sent = (n, ns)) :
    packageVersion n ns (s.writePackage sent) = some (s.revision + 1) := by
  obtain ⟨cur, member, same, -⟩ := admits_ok admitted
  have stored : key (Resource.stamp sent (s.revision + 1)) ∈ s.packages.map key := by
    simpa [← same] using List.mem_map_of_mem key member
  have found := lookup_replace s.packages_fresh.1 stored
  rw [key_stamp, target] at found
  simp [packageVersion, found]

@[simp] theorem packageVersion_writeFunction (s : Store) (fn : Function) :
    packageVersion n ns (s.writeFunction fn) = packageVersion n ns s := rfl

/-- A package write lands on top of every older one. -/
theorem Landed.writePackage {s s' : Store} {newPkgMeta : ObjectMeta} {rest : List Function}
    (landed : Landed n ns s newPkgMeta) (written : packageVersion n ns s' = some (s.revision + 1)) :
    Landed n ns s' newPkgMeta ∧ Covered n ns s' newPkgMeta rest := by
  obtain ⟨v, found, behind⟩ := landed
  have current := packageVersion_le n ns found
  refine ⟨⟨_, written, by omega⟩, fun back => ?_⟩
  rw [written, Option.some.injEq] at back
  omega

/-- Another invocation's function write keeps an invocation's coverage. -/
theorem Covered.writeFunction {s : Store} {newPkgMeta other : ObjectMeta} {rest : List Function}
    {fn : Function} (skeleton : s.functions.map entry = skel) (unique : (skel.map Prod.fst).Nodup)
    (covered : Covered n ns s newPkgMeta rest)
    (admitted : admits s.functions (fn.repin other.resourceVersion) = .ok ())
    (known : entry fn ∈ skel) (older : version fn < other.resourceVersion)
    (otherLanded : Landed n ns s other) :
    Covered n ns (s.writeFunction (fn.repin other.resourceVersion)) newPkgMeta rest := by
  intro current f member matching
  rw [packageVersion_writeFunction] at current
  rcases mem_replace member with rfl | ⟨old, -⟩
  · obtain ⟨cur, stored, sameKey, sameVersion⟩ := admits_ok admitted
    have sameEntry : entry cur = entry fn :=
      entry_eq_of_key_eq unique (skeleton ▸ List.mem_map_of_mem entry stored) known sameKey
    rcases covered current cur stored (matches_of_entry n ns sameEntry (by simpa using matching))
      with keyed | ⟨-, later⟩
    · left
      simpa [← sameKey] using keyed
    · obtain ⟨v, found, behind⟩ := otherLanded
      rw [current, Option.some.injEq] at found
      simp only [sameVersion, version_repin] at later
      omega
  · exact covered current f old matching

theorem skel_nodup {s : Store} (skeleton : s.functions.map entry = skel) :
    (skel.map Prod.fst).Nodup := by
  rw [← skeleton, List.map_map]
  exact s.functions_fresh.1

theorem skeleton_moves {host : Host} {s s' : Store} {p p' : Proc} {w : Option Write}
    (skeleton : s.functions.map entry = skel) (moves : Moves host s p p' s' w)
    (mover : Local n ns skel s p) : s'.functions.map entry = skel := by
  cases moves with
  | writeFunction newPkgMeta fn rest phase admitted =>
    obtain ⟨-, -, knows⟩ := mover
    rw [phase] at knows
    obtain ⟨listed, -⟩ := knows
    have known := (listed fn (List.mem_cons_self fn rest)).1
    rw [← skeleton]
    refine map_entry_replace fun x member same => ?_
    exact entry_eq_of_key_eq (skel_nodup skel skeleton) (skeleton ▸ List.mem_map_of_mem entry member)
      (by simpa using known) same
  | _ => exact skeleton

theorem local_moves {host : Host} {s s' : Store} {p p' : Proc} {w : Option Write}
    (skeleton : s.functions.map entry = skel) (moves : Moves host s p p' s' w)
    (holds : Local n ns skel s p) : Local n ns skel s' p' := by
  obtain ⟨named, spaced, knows⟩ := holds
  cases moves with
  | fail err => exact ⟨named, spaced, trivial⟩
  | stay _ => exact ⟨named, spaced, knows⟩
  | read pkg _ got =>
    exact ⟨named, spaced, by simpa [named, spaced] using (Store.packageGet_ok got).2⟩
  | list pkg phase _ =>
    rw [phase] at knows
    obtain ⟨rfl, rfl⟩ := Prod.mk.inj knows
    refine ⟨named, spaced, knows, fun fn member => ?_, fun fn known matching => ?_⟩
    · have stored := (mem_getFunctionsByPackage.mp member).1
      exact ⟨skeleton ▸ List.mem_map_of_mem entry stored, Nat.lt_succ_of_le (s.functions_fresh.2 fn stored)⟩
    · obtain ⟨g, stored, same⟩ := List.mem_map.mp (skeleton ▸ known)
      have listed : g ∈ getFunctionsByPackage s pkg.metadata.name pkg.metadata.namespace :=
        mem_getFunctionsByPackage.mpr ⟨stored, matches_of_entry _ _ same matching⟩
      exact List.mem_map.mpr ⟨g, listed, congrArg Prod.fst same⟩
  | writePackage pkg sent fnList phase made admitted =>
    rw [phase] at knows
    obtain ⟨target, listed, listing⟩ := knows
    obtain ⟨srcA, deployA, rfl, -⟩ := updatePackageRecord_ok made
    refine ⟨named, spaced, listed, ⟨_, packageVersion_writePackage n ns admitted target, le_rfl⟩,
      fun _ fn member matching => .inl (listing fn ?_ matching)⟩
    exact skeleton ▸ List.mem_map_of_mem entry member
  | finish newPkgMeta phase =>
    rw [phase] at knows
    exact ⟨named, spaced, knows.2⟩
  | writeFunction newPkgMeta fn rest phase admitted =>
    rw [phase] at knows
    obtain ⟨listed, ⟨v, found, behind⟩, covered⟩ := knows
    refine ⟨named, spaced, fun g member => listed g (List.mem_cons_of_mem fn member), ⟨v, found, behind⟩,
      fun current f member matching => ?_⟩
    rw [packageVersion_writeFunction] at current
    rcases mem_replace member with rfl | ⟨old, other⟩
    · have settled := packageVersion_le n ns found
      exact .inr ⟨rfl, by simp only [version_stamp]; omega⟩
    · rcases covered current f old matching with keyed | pinned
      · exact .inl ((List.mem_cons.mp keyed).resolve_left other)
      · exact .inr pinned

theorem local_bystander {host : Host} {s s' : Store} {p p' q : Proc} {w : Option Write}
    (skeleton : s.functions.map entry = skel) (moves : Moves host s p p' s' w)
    (mover : Local n ns skel s p) (holds : Local n ns skel s q) : Local n ns skel s' q := by
  obtain ⟨named, spaced, knows⟩ := holds
  refine ⟨named, spaced, ?_⟩
  cases moves with
  | writePackage pkg sent fnList phase made admitted =>
    obtain ⟨-, -, moverKnows⟩ := mover
    rw [phase] at moverKnows
    obtain ⟨srcA, deployA, rfl, -⟩ := updatePackageRecord_ok made
    have written := packageVersion_writePackage n ns admitted moverKnows.1
    rcases q with ⟨args, _ | pkg | ⟨pkg, fnList⟩ | ⟨newPkgMeta, rest⟩ | newPkgMeta | err⟩
    all_goals first
      | exact knows
      | exact ⟨knows.1, fun fn member => ⟨(knows.2.1 fn member).1,
          Nat.lt_succ_of_lt (knows.2.1 fn member).2⟩, knows.2.2⟩
      | exact ⟨knows.1, Landed.writePackage n ns knows.2.1 written⟩
      | exact Landed.writePackage n ns knows.1 written
  | writeFunction other fn rest phase admitted =>
    obtain ⟨-, -, moverKnows⟩ := mover
    rw [phase] at moverKnows
    obtain ⟨listed, otherLanded, -⟩ := moverKnows
    obtain ⟨known, older⟩ := listed fn (List.mem_cons_self fn rest)
    have keep := fun {newPkgMeta : ObjectMeta} {rest : List Function}
        (covered : Covered n ns s newPkgMeta rest) =>
      Covered.writeFunction n ns skel skeleton (skel_nodup skel skeleton) covered admitted known older
        otherLanded
    rcases q with ⟨args, _ | pkg | ⟨pkg, fnList⟩ | ⟨newPkgMeta, rest⟩ | newPkgMeta | err⟩
    all_goals first
      | exact knows
      | exact ⟨knows.1, fun fn member => ⟨(knows.2.1 fn member).1,
          Nat.lt_succ_of_lt (knows.2.1 fn member).2⟩, knows.2.2⟩
      | exact ⟨knows.1, knows.2.1, keep knows.2.2⟩
      | exact ⟨knows.1, keep knows.2⟩
  | _ => exact knows

theorem Invariant.step {sys : System ι} (host : Host) (i : ι) (fault : Bool)
    (inv : Invariant n ns skel sys) : Invariant n ns skel (sys.step host i fault) := by
  have moves := step_moves host fault sys.store (sys.procs i)
  refine ⟨skeleton_moves n ns skel inv.skeleton moves (inv.procs i), fun j => ?_⟩
  rw [step_store, step_procs]
  split
  · exact local_moves n ns skel inv.skeleton moves (inv.procs i)
  · exact local_bystander n ns skel inv.skeleton moves (inv.procs i) (inv.procs j)

theorem Invariant.run {sys : System ι} (host : Host) (sched : List (ι × Bool))
    (inv : Invariant n ns skel sys) : Invariant n ns skel (sys.run host sched) := by
  induction sched generalizing sys with
  | nil => exact inv
  | cons call sched ih => exact ih (inv.step n ns skel host call.1 call.2)

omit [DecidableEq ι] in
theorem invariant_start (s : Store) (c : ι → Context)
    (target : ∀ i, (c i).string "name" = n ∧ (c i).string "pkgNamespace" = ns) :
    Invariant n ns (s.functions.map entry) (System.start s c) := by
  refine ⟨rfl, fun i => ⟨(target i).1, (target i).2, ?_⟩⟩
  simp only [System.start, Proc.start]
  split <;> trivial

end Invariant

/-- However the calls of any number of `pkgUpdate` invocations on one package interleave, and
whichever of them are lost: once the invocation whose package write landed last (the stored
package has the version its write returned) has completed, every function listed for the
package is pinned to that version, by a write made after it. -/
theorem pkgUpdate_last_writer_pins_functions (host : Host) (s : Store) (c : ι → Context)
    (n ns : String) (target : ∀ i, (c i).string "name" = n ∧ (c i).string "pkgNamespace" = ns)
    (sched : List (ι × Bool)) (b : ι) (newPkgMeta : ObjectMeta)
    (done : (((System.start s c).run host sched).procs b).phase = .done newPkgMeta)
    (last : packageVersion n ns ((System.start s c).run host sched).store =
      some newPkgMeta.resourceVersion) :
    ∀ fn ∈ ((System.start s c).run host sched).store.functions, inNamespace ns fn = true →
      fn.spec.package.packageRef.name = n →
        fn.spec.package.packageRef.resourceVersion = newPkgMeta.resourceVersion ∧
          newPkgMeta.resourceVersion < version fn := by
  intro fn member spaced named
  obtain ⟨-, -, knows⟩ := ((invariant_start n ns s c target).run n ns _ host sched).procs b
  rw [done] at knows
  rcases knows.2 last fn member ⟨spaced, named⟩ with keyed | pinned
  · cases keyed
  · exact pinned

/-- Two invocations racing: the package write of `true` is refused as stale. -/
def raceSchedule : List (Bool × Bool) :=
  [(false, false), (true, false), (false, false), (true, false), (false, false), (true, false),
    (false, false), (false, false)]

theorem pkgUpdate_race_sample :
    (((System.start helloStore fun _ => buildcmdContext).run default raceSchedule).procs false).phase =
        .done { helloPackage.metadata with resourceVersion := 4 } ∧
      packageVersion "hello" "default"
        ((System.start helloStore fun _ => buildcmdContext).run default raceSchedule).store = some 4 ∧
      ∀ fn ∈ ((System.start helloStore fun _ => buildcmdContext).run default raceSchedule).store.functions,
        inNamespace "default" fn = true → fn.spec.package.packageRef.name = "hello" →
          fn.spec.package.packageRef.resourceVersion = 4 ∧ 4 < version fn :=
  ⟨rfl, rfl, pkgUpdate_last_writer_pins_functions default helloStore (fun _ => buildcmdContext)
    "hello" "default" (fun _ => ⟨rfl, rfl⟩) raceSchedule false _ rfl rfl⟩

end FissionCli.Concurrent
