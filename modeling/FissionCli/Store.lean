import FissionCli.Types
import Mathlib.Data.List.Nodup

/-! The controller's store of packages and functions as the client calls of the CLI see it.
An update is accepted only when the record sent carries the resource version stored under its
key (optimistic concurrency); the store then stamps it with its next revision. -/

namespace FissionCli

open Resource

section Table

variable {α : Type} [Resource α]

/-- A table's invariant: keys are unique and no version is newer than the store's revision. -/
def Fresh (revision : Nat) (objs : List α) : Prop :=
  (objs.map key).Nodup ∧ ∀ o ∈ objs, version o ≤ revision

instance (revision : Nat) (objs : List α) : Decidable (Fresh revision objs) :=
  inferInstanceAs (Decidable (_ ∧ _))

def lookup (objs : List α) (k : String × String) : Option α := objs.find? (key · = k)

/-- The table with the record under `o`'s key replaced by `o`. -/
def replace (objs : List α) (o : α) : List α :=
  objs.map fun x => if key x = key o then o else x

/-- The optimistic-concurrency check of an update: the key is stored, with the version sent. -/
def admits (objs : List α) (o : α) : Except ApiError Unit :=
  match lookup objs (key o) with
  | none => .error .notFound
  | some cur => if version cur = version o then .ok () else .error .conflict

theorem lookup_some {objs : List α} {k : String × String} {o : α} (found : lookup objs k = some o) :
    o ∈ objs ∧ key o = k := by
  have member := List.mem_of_find?_eq_some found
  have hit := List.find?_some found
  exact ⟨member, by simpa using hit⟩

theorem lookup_of_mem {objs : List α} {o : α} (unique : (objs.map key).Nodup) (member : o ∈ objs) :
    lookup objs (key o) = some o := by
  induction objs with
  | nil => simp at member
  | cons x rest ih =>
    simp only [List.map_cons, List.nodup_cons, List.mem_map] at unique
    rcases List.mem_cons.mp member with same | later
    · subst same; simp [lookup]
    · have other : key x ≠ key o := fun eq => unique.1 ⟨o, later, eq.symm⟩
      simpa [lookup, other] using ih unique.2 later

theorem admits_ok {objs : List α} {o : α} (accepted : admits objs o = .ok ()) :
    ∃ cur ∈ objs, key cur = key o ∧ version cur = version o := by
  unfold admits at accepted
  split at accepted
  · cases accepted
  · next cur found =>
    split at accepted
    · exact ⟨cur, (lookup_some found).1, (lookup_some found).2, ‹_›⟩
    · cases accepted

theorem admits_of_mem {objs : List α} {o cur : α} (unique : (objs.map key).Nodup)
    (member : cur ∈ objs) (same : key cur = key o) (current : version cur = version o) :
    admits objs o = .ok () := by
  simp [admits, ← same, lookup_of_mem unique member, current]

@[simp] theorem map_key_replace (objs : List α) (o : α) :
    (replace objs o).map key = objs.map key := by
  simp only [replace, List.map_map]
  congr 1
  funext x
  by_cases same : key x = key o <;> simp [same]

theorem mem_replace {objs : List α} {o x : α} (member : x ∈ replace objs o) :
    x = o ∨ (x ∈ objs ∧ key x ≠ key o) := by
  obtain ⟨y, old, rfl⟩ := List.mem_map.mp member
  by_cases same : key y = key o <;> simp [same, old]

theorem mem_replace_of_ne {objs : List α} {o x : α} (member : x ∈ objs) (other : key x ≠ key o) :
    x ∈ replace objs o :=
  List.mem_map.mpr ⟨x, member, by simp [other]⟩

theorem lookup_replace {objs : List α} {o : α} (unique : (objs.map key).Nodup)
    (stored : key o ∈ objs.map key) : lookup (replace objs o) (key o) = some o := by
  obtain ⟨cur, member, same⟩ := List.mem_map.mp stored
  exact lookup_of_mem (by simpa using unique) (List.mem_map.mpr ⟨cur, member, by simp [same]⟩)

theorem Fresh.mono {r r' : Nat} {objs : List α} (fresh : Fresh r objs) (le : r ≤ r') :
    Fresh r' objs :=
  ⟨fresh.1, fun o member => (fresh.2 o member).trans le⟩

theorem Fresh.replace {r : Nat} {objs : List α} (fresh : Fresh r objs) (o : α) :
    Fresh (r + 1) (replace objs (stamp o (r + 1))) := by
  refine ⟨by simpa using fresh.1, fun x member => ?_⟩
  rcases mem_replace member with rfl | ⟨old, -⟩
  · simp
  · exact (fresh.2 x old).trans (Nat.le_succ r)

theorem Fresh.filter {r : Nat} {objs : List α} (fresh : Fresh r objs) (keep : α → Bool) :
    Fresh r (objs.filter keep) :=
  ⟨fresh.1.sublist ((List.filter_sublist objs).map key),
    fun o member => fresh.2 o (List.mem_of_mem_filter member)⟩

theorem lookup_eq_none {objs : List α} {k : String × String} :
    lookup objs k = none ↔ k ∉ objs.map key := by
  simp [lookup, List.find?_eq_none]

theorem Fresh.insert {r : Nat} {objs : List α} (fresh : Fresh r objs) {o : α}
    (absent : lookup objs (key o) = none) : Fresh (r + 1) (objs ++ [stamp o (r + 1)]) := by
  refine ⟨?_, fun x member => ?_⟩
  · simpa [List.nodup_append, fresh.1] using lookup_eq_none.mp absent
  · rcases List.mem_append.mp member with old | added
    · exact (fresh.2 x old).trans (Nat.le_succ r)
    · simp [List.mem_singleton.mp added]

end Table

structure Store where
  packages : List Package
  functions : List Function
  revision : Nat
  packages_fresh : Fresh revision packages
  functions_fresh : Fresh revision functions

/-- A write the store accepted, with the metadata it answered a package write with. -/
inductive Write where
  | package (sent : Package) (ack : ObjectMeta)
  | function (sent : Function)
  deriving DecidableEq, Repr

namespace Store

def packageGet (s : Store) (name ns : String) : Except ApiError Package :=
  match lookup s.packages (name, ns) with
  | none => .error .notFound
  | some pkg => .ok pkg

def packageList (s : Store) (ns : String) : List Package := s.packages.filter (inNamespace ns)

def functionList (s : Store) (ns : String) : List Function := s.functions.filter (inNamespace ns)

/-- The store once it has accepted `pkg`, stamped with the next revision. -/
def writePackage (s : Store) (pkg : Package) : Store :=
  ⟨replace s.packages (stamp pkg (s.revision + 1)), s.functions, s.revision + 1,
    s.packages_fresh.replace pkg, s.functions_fresh.mono (Nat.le_succ _)⟩

/-- The store once it has accepted `fn`, stamped with the next revision. -/
def writeFunction (s : Store) (fn : Function) : Store :=
  ⟨s.packages, replace s.functions (stamp fn (s.revision + 1)), s.revision + 1,
    s.packages_fresh.mono (Nat.le_succ _), s.functions_fresh.replace fn⟩

def packageUpdate (s : Store) (pkg : Package) : Except ApiError (ObjectMeta × Store) := do
  admits s.packages pkg
  pure ({ pkg.metadata with resourceVersion := s.revision + 1 }, s.writePackage pkg)

def functionUpdate (s : Store) (fn : Function) : Except ApiError (ObjectMeta × Store) := do
  admits s.functions fn
  pure ({ fn.metadata with resourceVersion := s.revision + 1 }, s.writeFunction fn)

def packageDelete (s : Store) (name ns : String) : Except ApiError Store :=
  match lookup s.packages (name, ns) with
  | none => .error .notFound
  | some _ => .ok ⟨s.packages.filter (key · ≠ (name, ns)), s.functions, s.revision,
      s.packages_fresh.filter _, s.functions_fresh⟩

/-- `PackageCreate`: a record under a new key is stored, stamped with the next revision. -/
def packageCreate (s : Store) (pkg : Package) : Except ApiError (ObjectMeta × Store) :=
  match absent : lookup s.packages (key pkg) with
  | some _ => .error .alreadyExists
  | none => .ok ({ pkg.metadata with resourceVersion := s.revision + 1 },
      ⟨s.packages ++ [stamp pkg (s.revision + 1)], s.functions, s.revision + 1,
        s.packages_fresh.insert absent, s.functions_fresh.mono (Nat.le_succ _)⟩)

def perform (s : Store) : Write → Store
  | .package sent _ => s.writePackage sent
  | .function sent => s.writeFunction sent

/-- The store after it has accepted a sequence of writes, in order. -/
def replay (s : Store) (ws : List Write) : Store := ws.foldl perform s

@[simp] theorem writePackage_functions (s : Store) (pkg : Package) :
    (s.writePackage pkg).functions = s.functions := rfl

@[simp] theorem writePackage_packages (s : Store) (pkg : Package) :
    (s.writePackage pkg).packages = replace s.packages (stamp pkg (s.revision + 1)) := rfl

@[simp] theorem writePackage_revision (s : Store) (pkg : Package) :
    (s.writePackage pkg).revision = s.revision + 1 := rfl

@[simp] theorem writeFunction_packages (s : Store) (fn : Function) :
    (s.writeFunction fn).packages = s.packages := rfl

@[simp] theorem writeFunction_functions (s : Store) (fn : Function) :
    (s.writeFunction fn).functions = replace s.functions (stamp fn (s.revision + 1)) := rfl

@[simp] theorem writeFunction_revision (s : Store) (fn : Function) :
    (s.writeFunction fn).revision = s.revision + 1 := rfl

@[simp] theorem perform_package (s : Store) (sent : Package) (ack : ObjectMeta) :
    s.perform (.package sent ack) = s.writePackage sent := rfl

@[simp] theorem perform_function (s : Store) (sent : Function) :
    s.perform (.function sent) = s.writeFunction sent := rfl

@[simp] theorem replay_nil (s : Store) : s.replay [] = s := rfl

@[simp] theorem replay_cons (s : Store) (w : Write) (ws : List Write) :
    s.replay (w :: ws) = (s.perform w).replay ws := rfl

/-- An accepted update, of either table, passed the version check and answered as its write. -/
theorem update_ok {α : Type} [Resource α] {objs : List α} {o : α} {m meta : ObjectMeta} {w s' : Store}
    (accepted : (do admits objs o; pure (m, w) : Except ApiError (ObjectMeta × Store)) = .ok (meta, s')) :
    admits objs o = .ok () ∧ meta = m ∧ s' = w := by
  cases checked : admits objs o with
  | error e => simp [checked] at accepted
  | ok u =>
    simp only [checked, ok_bind, pure_eq_ok, Except.ok.injEq, Prod.mk.injEq] at accepted
    exact ⟨rfl, accepted.1.symm, accepted.2.symm⟩

theorem packageGet_ok {s : Store} {name ns : String} {pkg : Package}
    (found : s.packageGet name ns = .ok pkg) : pkg ∈ s.packages ∧ key pkg = (name, ns) := by
  unfold packageGet at found
  split at found
  · cases found
  · next found' => cases found; exact lookup_some found'

theorem packageUpdate_of_packageGet {s : Store} {name ns : String} {pkg : Package} (sent : Package)
    (found : s.packageGet name ns = .ok pkg) (sameKey : key sent = key pkg)
    (sameVersion : version sent = version pkg) :
    s.packageUpdate sent =
      .ok ({ sent.metadata with resourceVersion := s.revision + 1 }, s.writePackage sent) := by
  have stored := packageGet_ok found
  simp [packageUpdate, admits_of_mem s.packages_fresh.1 stored.1 sameKey.symm sameVersion.symm]

theorem packageDelete_ok {s s' : Store} {name ns : String} (deleted : s.packageDelete name ns = .ok s') :
    (∃ pkg ∈ s.packages, key pkg = (name, ns)) ∧
      s'.packages = s.packages.filter (key · ≠ (name, ns)) ∧ s'.functions = s.functions := by
  unfold packageDelete at deleted
  split at deleted
  · cases deleted
  · next pkg found =>
    cases deleted
    exact ⟨⟨pkg, lookup_some found⟩, rfl, rfl⟩

theorem packageDelete_of_mem {s : Store} {pkg : Package} (stored : pkg ∈ s.packages) :
    ∃ s', s.packageDelete pkg.metadata.name pkg.metadata.namespace = .ok s' ∧
      s'.packages = s.packages.filter (key · ≠ key pkg) ∧ s'.functions = s.functions := by
  have found : lookup s.packages (key pkg) = some pkg := lookup_of_mem s.packages_fresh.1 stored
  unfold packageDelete
  split
  · next missing => exact absurd (found.symm.trans missing) (Option.some_ne_none pkg)
  · exact ⟨_, rfl, rfl, rfl⟩

theorem packageCreate_ok {s s' : Store} {pkg : Package} {meta : ObjectMeta}
    (created : s.packageCreate pkg = .ok (meta, s')) :
    meta = { pkg.metadata with resourceVersion := s.revision + 1 } ∧
      s'.packages = s.packages ++ [stamp pkg (s.revision + 1)] ∧ s'.functions = s.functions ∧
      s'.revision = s.revision + 1 := by
  unfold packageCreate at created
  split at created
  · cases created
  · cases created
    exact ⟨rfl, rfl, rfl, rfl⟩

theorem functionUpdate_of_mem {s : Store} {fn : Function} (sent : Function) (stored : fn ∈ s.functions)
    (sameKey : key sent = key fn) (sameVersion : version sent = version fn) :
    s.functionUpdate sent =
      .ok ({ sent.metadata with resourceVersion := s.revision + 1 }, s.writeFunction sent) := by
  simp [functionUpdate, admits_of_mem s.functions_fresh.1 stored sameKey.symm sameVersion.symm]

end Store

/-- A client call as the network delivers it: `fault` is the call lost in transport. -/
def call {α : Type} (fault : Bool) (answer : Except ApiError α) : Except ApiError α :=
  if fault then .error .unreachable else answer

@[simp] theorem call_false {α : Type} (answer : Except ApiError α) : call false answer = answer := rfl

@[simp] theorem call_true {α : Type} (answer : Except ApiError α) :
    call true answer = .error .unreachable := rfl

theorem call_ok {α : Type} {fault : Bool} {answer : Except ApiError α} {a : α}
    (ok : call fault answer = .ok a) : fault = false ∧ answer = .ok a := by
  cases fault
  · exact ⟨rfl, ok⟩
  · cases ok

/-- The functions listed in `pkgNamespace` whose reference names `pkgName`, in any namespace. -/
def getFunctionsByPackage (s : Store) (pkgName pkgNamespace : String) : List Function :=
  (s.functionList pkgNamespace).filter fun fn => fn.spec.package.packageRef.name = pkgName

theorem mem_getFunctionsByPackage {s : Store} {pkgName pkgNamespace : String} {fn : Function} :
    fn ∈ getFunctionsByPackage s pkgName pkgNamespace ↔
      fn ∈ s.functions ∧ inNamespace pkgNamespace fn ∧ fn.spec.package.packageRef.name = pkgName := by
  simp only [getFunctionsByPackage, Store.functionList, List.mem_filter, decide_eq_true_eq]
  tauto

theorem getFunctionsByPackage_congr {s s' : Store} (same : s'.functions = s.functions)
    (pkgName pkgNamespace : String) :
    getFunctionsByPackage s' pkgName pkgNamespace = getFunctionsByPackage s pkgName pkgNamespace := by
  simp [getFunctionsByPackage, Store.functionList, same]

theorem getFunctionsByPackage_sublist (s : Store) (pkgName pkgNamespace : String) :
    (getFunctionsByPackage s pkgName pkgNamespace).Sublist s.functions :=
  (List.filter_sublist _).trans (List.filter_sublist _)

theorem getFunctionsByPackage_nodup (s : Store) (pkgName pkgNamespace : String) :
    ((getFunctionsByPackage s pkgName pkgNamespace).map key).Nodup :=
  s.functions_fresh.1.sublist ((getFunctionsByPackage_sublist s pkgName pkgNamespace).map key)

end FissionCli
