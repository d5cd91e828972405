import FissionCli.PkgUpdate

/-! `package list`, `package delete` and the orphan sweep they share. A package is an orphan when
no function listed in a namespace references it by name: `pkgList` asks in each package's own
namespace, while `deleteOrphanPkgs` asks in the namespace it was given and deletes under it. The
sweep stops at the first delete the store refuses, keeping the deletes before it; `deleteStore`
is the store `pkgDelete` leaves however it ends. -/

namespace FissionCli.Delete

open PkgUpdate

def deletePackage (s : Store) (pkgName pkgNamespace : String) : Except ApiError Store :=
  s.packageDelete pkgName pkgNamespace

/-- The loop of `deleteOrphanPkgs`; the first refused delete ends it with its error. -/
def deleteOrphansOf (pkgNamespace : String) : Store → List Package → Except ApiError Store
  | s, [] => pure s
  | s, pkg :: rest =>
    if (getFunctionsByPackage s pkg.metadata.name pkgNamespace).length = 0 then do
      let s' ← deletePackage s pkg.metadata.name pkgNamespace
      deleteOrphansOf pkgNamespace s' rest
    else deleteOrphansOf pkgNamespace s rest

def deleteOrphanPkgs (s : Store) (pkgNamespace : String) : Except ApiError Store :=
  deleteOrphansOf pkgNamespace s (s.packageList pkgNamespace)

/-- The packages `pkgList --orphan` prints. -/
def orphanPackages (s : Store) (pkgNamespace : String) : List Package :=
  (s.packageList pkgNamespace).filter fun pkg =>
    (getFunctionsByPackage s pkg.metadata.name pkg.metadata.namespace).length = 0

def row (pkg : Package) : List String :=
  [pkg.metadata.name, pkg.status.buildStatus.text, pkg.spec.environment.name]

/-- The table `pkgList` prints, header first. -/
def pkgList (s : Store) (c : Context) : List (List String) :=
  let listOrphans := c.bool "orphan"
  let pkgNamespace := c.string "pkgNamespace"
  ["NAME", "BUILD_STATUS", "ENV"] ::
    (if listOrphans then orphanPackages s pkgNamespace else s.packageList pkgNamespace).map row

/-- The store after `pkgDelete`, and the lines it prints. -/
def pkgDelete (s : Store) (c : Context) : Except Fatal (Store × List String) :=
  let pkgName := c.string "name"
  let pkgNamespace := c.string "pkgNamespace"
  let deleteOrphans := c.bool "orphan"
  if pkgName.length = 0 ∧ deleteOrphans = false then pure (s, ["Need --name argument or --orphan flag."])
  else if pkgName.length ≠ 0 ∧ deleteOrphans = true then
    pure (s, ["Need either --name argument or --orphan flag"])
  else if pkgName.length ≠ 0 then do
    let force := c.bool "f"
    let _ ← apiCheck "find package" (s.packageGet pkgName pkgNamespace)
    let fnList := getFunctionsByPackage s pkgName pkgNamespace
    if force = false ∧ fnList.length > 0 then
      throw (.log "Package is used by at least one function, use -f to force delete")
    else do
      let s' ← (deletePackage s pkgName pkgNamespace).mapError .returned
      pure (s', ["Package '" ++ pkgName ++ "' deleted"])
  else do
    let s' ← apiCheck "error deleting orphan packages" (deleteOrphanPkgs s pkgNamespace)
    pure (s', ["Orphan packages deleted"])

/-- The store after the loop of `deleteOrphanPkgs`, however it ends. -/
def sweptStore (pkgNamespace : String) : Store → List Package → Store
  | s, [] => s
  | s, pkg :: rest =>
    if (getFunctionsByPackage s pkg.metadata.name pkgNamespace).length = 0 then
      match deletePackage s pkg.metadata.name pkgNamespace with
      | .ok s' => sweptStore pkgNamespace s' rest
      | .error _ => s
    else sweptStore pkgNamespace s rest

/-- The store after `pkgDelete`, however it ends. -/
def deleteStore (s : Store) (c : Context) : Store :=
  if c.string "name" = "" ∧ c.bool "orphan" = true then
    sweptStore (c.string "pkgNamespace") s (s.packageList (c.string "pkgNamespace"))
  else match pkgDelete s c with
    | .ok (s', _) => s'
    | .error _ => s

theorem used_listed {s : Store} {pkg : Package} {fn : Function} (stored : fn ∈ s.functions)
    (spaced : fn.metadata.namespace = pkg.metadata.namespace)
    (named : fn.spec.package.packageRef.name = pkg.metadata.name) :
    fn ∈ getFunctionsByPackage s pkg.metadata.name pkg.metadata.namespace :=
  mem_getFunctionsByPackage.mpr ⟨stored, by simp [inNamespace, Resource.objectMeta, spaced], named⟩

/-- What the sweep deletes, wherever it stops: orphans of `pkgNamespace` only. -/
theorem sweptStore_sound (pkgNamespace : String) (s : Store) (pkgs : List Package) :
    (sweptStore pkgNamespace s pkgs).functions = s.functions ∧
      (∀ pkg ∈ (sweptStore pkgNamespace s pkgs).packages, pkg ∈ s.packages) ∧
      ∀ pkg ∈ s.packages, pkg ∉ (sweptStore pkgNamespace s pkgs).packages →
        pkg.metadata.namespace = pkgNamespace ∧
          (getFunctionsByPackage s pkg.metadata.name pkgNamespace).length = 0 := by
  induction pkgs generalizing s with
  | nil => exact ⟨rfl, fun _ kept => kept, fun _ kept gone => absurd kept gone⟩
  | cons first rest ih =>
    simp only [sweptStore]
    split
    · next orphan =>
      split
      · next s₁ deleted =>
        obtain ⟨-, packages, functions⟩ := Store.packageDelete_ok deleted
        obtain ⟨sameFunctions, within, gone⟩ := ih s₁
        refine ⟨sameFunctions.trans functions, fun pkg kept => ?_, fun pkg stored missing => ?_⟩
        · have kept₁ := within pkg kept
          rw [packages] at kept₁
          exact List.mem_of_mem_filter kept₁
        · by_cases kept₁ : pkg ∈ s₁.packages
          · rw [← getFunctionsByPackage_congr functions]
            exact gone pkg kept₁ missing
          · have target : key pkg = (first.metadata.name, pkgNamespace) := by
              simpa [packages, stored] using kept₁
            obtain ⟨named, spaced⟩ := Prod.mk.inj target
            exact ⟨spaced, named ▸ orphan⟩
      · exact ⟨rfl, fun _ kept => kept, fun _ kept gone => absurd kept gone⟩
    · exact ih s

theorem sweptStore_of_ok {pkgNamespace : String} {s s' : Store} {pkgs : List Package}
    (swept : deleteOrphansOf pkgNamespace s pkgs = .ok s') : sweptStore pkgNamespace s pkgs = s' := by
  induction pkgs generalizing s with
  | nil => cases swept; rfl
  | cons pkg rest ih =>
    simp only [deleteOrphansOf] at swept
    simp only [sweptStore]
    split
    · next orphan =>
      rw [if_pos orphan] at swept
      obtain ⟨s₁, deleted, swept⟩ := bind_eq_ok.mp swept
      rw [deleted]
      exact ih swept
    · next used =>
      rw [if_neg used] at swept
      exact ih swept

theorem deleteOrphansOf_sound {pkgNamespace : String} {s s' : Store} {pkgs : List Package}
    (swept : deleteOrphansOf pkgNamespace s pkgs = .ok s') :
    s'.functions = s.functions ∧ (∀ pkg ∈ s'.packages, pkg ∈ s.packages) ∧
      ∀ pkg ∈ s.packages, pkg ∉ s'.packages → pkg.metadata.namespace = pkgNamespace ∧
        (getFunctionsByPackage s pkg.metadata.name pkgNamespace).length = 0 :=
  sweptStore_of_ok swept ▸ sweptStore_sound pkgNamespace s pkgs

/-- A sweep over distinct packages of `pkgNamespace` deletes exactly its orphans. -/
theorem deleteOrphansOf_complete {pkgNamespace : String} (s : Store) (pkgs : List Package)
    (stored : ∀ pkg ∈ pkgs, pkg ∈ s.packages ∧ pkg.metadata.namespace = pkgNamespace)
    (distinct : (pkgs.map key).Nodup) :
    ∃ s', deleteOrphansOf pkgNamespace s pkgs = .ok s' ∧ ∀ pkg ∈ s.packages, (pkg ∈ s'.packages ↔
      ¬(pkg ∈ pkgs ∧ (getFunctionsByPackage s pkg.metadata.name pkgNamespace).length = 0)) := by
  induction pkgs generalizing s with
  | nil => exact ⟨s, rfl, fun pkg member => by simp [member]⟩
  | cons first rest ih =>
    simp only [List.map_cons, List.nodup_cons, List.mem_map] at distinct
    obtain ⟨firstStored, firstSpaced⟩ := stored first (List.mem_cons_self first rest)
    by_cases orphan : (getFunctionsByPackage s first.metadata.name pkgNamespace).length = 0
    · obtain ⟨s₁, deleted, packages, functions⟩ := Store.packageDelete_of_mem firstStored
      rw [firstSpaced] at deleted
      have restStored : ∀ pkg ∈ rest, pkg ∈ s₁.packages ∧ pkg.metadata.namespace = pkgNamespace := by
        intro pkg member
        obtain ⟨kept, spaced⟩ := stored pkg (List.mem_cons_of_mem first member)
        rw [packages]
        exact ⟨List.mem_filter.mpr ⟨kept, by simpa using fun same => distinct.1 ⟨pkg, member, same⟩⟩, spaced⟩
      obtain ⟨s', swept, exact⟩ := ih s₁ restStored distinct.2
      refine ⟨s', by simp [deleteOrphansOf, orphan, deletePackage, deleted, swept], fun pkg member => ?_⟩
      by_cases same : key pkg = key first
      · obtain rfl := List.inj_on_of_nodup_map s.packages_fresh.1 member firstStored same
        have gone : pkg ∉ s₁.packages := by simp [packages]
        exact iff_of_false (fun kept => gone ((deleteOrphansOf_sound swept).2.1 pkg kept))
          (fun keep => keep ⟨List.mem_cons_self pkg rest, orphan⟩)
      · have kept : pkg ∈ s₁.packages := by simpa [packages, member] using same
        have other : pkg ≠ first := fun eq => same (congrArg key eq)
        rw [exact pkg kept, getFunctionsByPackage_congr functions]
        simp [other]
    · obtain ⟨s', swept, exact⟩ :=
        ih s (fun pkg member => stored pkg (List.mem_cons_of_mem first member)) distinct.2
      refine ⟨s', by simp [deleteOrphansOf, orphan, swept], fun pkg member => ?_⟩
      rw [exact pkg member]
      by_cases same : pkg = first
      · subst same
        simp [orphan]
      · simp [same]

/-- What a `package delete` that succeeds did. -/
theorem pkgDelete_ok_cases {s s' : Store} {c : Context} {out : List String}
    (ran : pkgDelete s c = .ok (s', out)) :
    s' = s ∨
      (c.bool "orphan" = false ∧ s.packageDelete (c.string "name") (c.string "pkgNamespace") = .ok s' ∧
        (c.bool "f" = true ∨ getFunctionsByPackage s (c.string "name") (c.string "pkgNamespace") = [])) ∨
      (c.string "name" = "" ∧ c.bool "orphan" = true ∧
        deleteOrphanPkgs s (c.string "pkgNamespace") = .ok s') := by
  unfold pkgDelete at ran
  dsimp only at ran
  split at ran
  · cases ran; exact .inl rfl
  · next notNone =>
    split at ran
    · cases ran; exact .inl rfl
    · next notBoth =>
      split at ran
      · next given =>
        obtain ⟨-, -, ran⟩ := bind_eq_ok.mp ran
        split at ran
        · cases ran
        · next guard =>
          obtain ⟨s₁, deleted, ran⟩ := bind_eq_ok.mp ran
          cases ran
          refine .inr (.inl ⟨by simpa [given] using notBoth, mapError_eq_ok.mp deleted, ?_⟩)
          cases force : c.bool "f"
          · exact .inr (List.length_eq_zero.mp (by simpa [force] using guard))
          · exact .inl rfl
      · next unnamed =>
        obtain ⟨s₁, swept, ran⟩ := bind_eq_ok.mp ran
        cases ran
        have empty : c.string "name" = "" := by simpa using unnamed
        exact .inr (.inr ⟨empty, by simpa [empty] using notNone, apiCheck_eq_ok.mp swept⟩)

theorem deleteStore_of_ok {s s' : Store} {c : Context} {out : List String}
    (ran : pkgDelete s c = .ok (s', out)) : deleteStore s c = s' := by
  unfold deleteStore
  split
  · next sweep =>
    obtain ⟨unnamed, orphans⟩ := sweep
    simp only [pkgDelete, unnamed, orphans, String.length_empty, true_and, Bool.true_eq_false,
      and_false, if_false, ne_eq, not_true_eq_false, false_and] at ran
    obtain ⟨s₁, swept, ran⟩ := bind_eq_ok.mp ran
    cases ran
    exact sweptStore_of_ok (apiCheck_eq_ok.mp swept)
  · rw [ran]

/-- Neither `package delete --name` without `-f` nor `--orphan` deletes a package that a function
of its own namespace references by name, also when the sweep stops part way. -/
theorem pkgDelete_keeps_packages_used_in_namespace (s : Store) (c : Context)
    (unforced : c.bool "f" = false ∨ c.bool "orphan" = true) :
    ∀ pkg ∈ s.packages, (∃ fn ∈ s.functions, fn.metadata.namespace = pkg.metadata.namespace ∧
      fn.spec.package.packageRef.name = pkg.metadata.name) →
      pkg ∈ (deleteStore s c).packages ∧ ∀ s' out, pkgDelete s c = .ok (s', out) → pkg ∈ s'.packages := by
  rintro pkg stored ⟨fn, fnStored, spaced, named⟩
  have listed := used_listed fnStored spaced named
  have kept : pkg ∈ (deleteStore s c).packages := by
    unfold deleteStore
    split
    · by_contra gone
      obtain ⟨same, orphan⟩ := (sweptStore_sound _ s _).2.2 pkg stored gone
      rw [← same] at orphan
      exact List.ne_nil_of_mem listed (List.length_eq_zero.mp orphan)
    · next notSweep =>
      split
      · next s' out ran =>
        rcases pkgDelete_ok_cases ran with rfl | ⟨single, deleted, allowed⟩ | ⟨unnamed, orphans, -⟩
        · exact stored
        · obtain ⟨-, packages, -⟩ := Store.packageDelete_ok deleted
          rw [packages]
          refine List.mem_filter.mpr ⟨stored, decide_eq_true fun target => ?_⟩
          rw [unforced.resolve_right (by simp [single]), ← (Prod.mk.inj target).1,
            ← (Prod.mk.inj target).2] at allowed
          exact List.ne_nil_of_mem listed (allowed.resolve_left Bool.false_ne_true)
        · exact absurd ⟨unnamed, orphans⟩ notSweep
      · exact stored
  exact ⟨kept, fun s' out ran => deleteStore_of_ok ran ▸ kept⟩

/-- `package delete --orphan`. -/
def deleteOrphansContext : Context :=
  ⟨fun _ => none, fun _ => none, fun name => if name = "orphan" then some true else none⟩

theorem pkgDelete_orphans_keep_used_sample :
    (deleteOrphansContext.bool "f" = false ∨ deleteOrphansContext.bool "orphan" = true) ∧
      ∀ pkg ∈ helloStore.packages, (∃ fn ∈ helloStore.functions,
        fn.metadata.namespace = pkg.metadata.namespace ∧
          fn.spec.package.packageRef.name = pkg.metadata.name) →
        pkg ∈ (deleteStore helloStore deleteOrphansContext).packages ∧
          ∀ s' out, pkgDelete helloStore deleteOrphansContext = .ok (s', out) → pkg ∈ s'.packages :=
  ⟨.inl rfl, pkgDelete_keeps_packages_used_in_namespace helloStore deleteOrphansContext (.inl rfl)⟩

theorem pkgDelete_ignores_reference_from_other_namespace :
    crossFunction ∈ crossStore.functions ∧
      crossFunction.spec.package.packageRef.name = helloPackage.metadata.name ∧
      crossFunction.spec.package.packageRef.namespace = helloPackage.metadata.namespace ∧
      (∃ s', pkgDelete crossStore (Context.named "hello") = .ok (s', ["Package 'hello' deleted"]) ∧
        helloPackage ∉ s'.packages) ∧
      ∃ s', pkgDelete crossStore deleteOrphansContext = .ok (s', ["Orphan packages deleted"]) ∧
        helloPackage ∉ s'.packages :=
  ⟨List.mem_singleton.mpr rfl, rfl, rfl, ⟨_, rfl, List.not_mem_nil _⟩, ⟨_, rfl, List.not_mem_nil _⟩⟩

theorem packageList_spaced {s : Store} {ns : String} (spaced : ns ≠ "") :
    ∀ pkg ∈ s.packageList ns, pkg ∈ s.packages ∧ pkg.metadata.namespace = ns := by
  intro pkg member
  obtain ⟨stored, inside⟩ := List.mem_filter.mp member
  simpa [inNamespace, spaced, Resource.objectMeta, stored] using inside

/-- With a namespace given, the sweep succeeds and keeps exactly the packages that are not orphans. -/
theorem pkgDelete_orphans_ok (s : Store) (c : Context) (orphans : c.bool "orphan" = true)
    (unnamed : c.string "name" = "") (spaced : c.string "pkgNamespace" ≠ "") :
    ∃ s', pkgDelete s c = .ok (s', ["Orphan packages deleted"]) ∧ s'.functions = s.functions ∧
      (∀ pkg ∈ s'.packages, pkg ∈ s.packages) ∧
      ∀ pkg ∈ s.packages, (pkg ∈ s'.packages ↔ ¬(pkg ∈ s.packageList (c.string "pkgNamespace") ∧
        (getFunctionsByPackage s pkg.metadata.name (c.string "pkgNamespace")).length = 0)) := by
  obtain ⟨s', swept, exact⟩ := deleteOrphansOf_complete s _ (packageList_spaced spaced)
    (s.packages_fresh.1.sublist ((List.filter_sublist _).map key))
  obtain ⟨functions, within, -⟩ := deleteOrphansOf_sound swept
  exact ⟨s', by simp [pkgDelete, orphans, unnamed, deleteOrphanPkgs, swept], functions, within, exact⟩

/-- With a namespace given, `package delete --orphan` deletes exactly the rows `package list --orphan`
prints, in store order, and only packages. -/
theorem pkgDelete_orphans_match_pkgList (s : Store) (c : Context) (orphans : c.bool "orphan" = true)
    (unnamed : c.string "name" = "") (spaced : c.string "pkgNamespace" ≠ "") :
    ∃ s', pkgDelete s c = .ok (s', ["Orphan packages deleted"]) ∧ s'.functions = s.functions ∧
      (∀ pkg ∈ s'.packages, pkg ∈ s.packages) ∧
      pkgList s c = ["NAME", "BUILD_STATUS", "ENV"] :: (s.packages.filter (· ∉ s'.packages)).map row := by
  obtain ⟨s', ran, functions, within, exact⟩ := pkgDelete_orphans_ok s c orphans unnamed spaced
  refine ⟨s', ran, functions, within, ?_⟩
  simp only [pkgList, orphans, if_true, orphanPackages, Store.packageList, List.filter_filter]
  congr 2
  refine List.filter_congr fun pkg stored => ?_
  by_cases inside : inNamespace (c.string "pkgNamespace") pkg = true
  · have same := (packageList_spaced spaced pkg (List.mem_filter.mpr ⟨stored, inside⟩)).2
    simp [exact pkg stored, inside, same, Store.packageList, stored]
  · simp [exact pkg stored, inside, Store.packageList]

theorem pkgDelete_orphans_match_pkgList_sample :
    deleteOrphansContext.bool "orphan" = true ∧ deleteOrphansContext.string "name" = "" ∧
      deleteOrphansContext.string "pkgNamespace" ≠ "" ∧
      ∃ s', pkgDelete crossStore deleteOrphansContext = .ok (s', ["Orphan packages deleted"]) ∧
        s'.functions = crossStore.functions ∧ (∀ pkg ∈ s'.packages, pkg ∈ crossStore.packages) ∧
        pkgList crossStore deleteOrphansContext = ["NAME", "BUILD_STATUS", "ENV"] ::
          (crossStore.packages.filter (· ∉ s'.packages)).map row :=
  ⟨rfl, rfl, by decide, pkgDelete_orphans_match_pkgList crossStore deleteOrphansContext rfl rfl (by decide)⟩

theorem pkgDelete_orphans_leaves_used (s : Store) (c : Context) (orphans : c.bool "orphan" = true)
    (unnamed : c.string "name" = "") (spaced : c.string "pkgNamespace" ≠ "") :
    ∃ s', pkgDelete s c = .ok (s', ["Orphan packages deleted"]) ∧
      ∀ pkg ∈ s'.packageList (c.string "pkgNamespace"),
        (getFunctionsByPackage s' pkg.metadata.name (c.string "pkgNamespace")).length ≠ 0 := by
  obtain ⟨s', ran, functions, within, exact⟩ := pkgDelete_orphans_ok s c orphans unnamed spaced
  refine ⟨s', ran, fun pkg member => ?_⟩
  have kept := (packageList_spaced spaced pkg member).1
  have listed : pkg ∈ s.packageList (c.string "pkgNamespace") :=
    List.mem_filter.mpr ⟨within pkg kept, (List.mem_filter.mp member).2⟩
  rw [getFunctionsByPackage_congr functions]
  exact fun orphan => (exact pkg (within pkg kept)).mp kept ⟨listed, orphan⟩

/-- With a namespace given, `package list --orphan` after `package delete --orphan` prints only its
header. -/
theorem pkgDelete_orphans_then_pkgList_empty (s : Store) (c : Context) (orphans : c.bool "orphan" = true)
    (unnamed : c.string "name" = "") (spaced : c.string "pkgNamespace" ≠ "") :
    ∃ s', pkgDelete s c = .ok (s', ["Orphan packages deleted"]) ∧
      pkgList s' c = [["NAME", "BUILD_STATUS", "ENV"]] := by
  obtain ⟨s', ran, used⟩ := pkgDelete_orphans_leaves_used s c orphans unnamed spaced
  refine ⟨s', ran, ?_⟩
  simp only [pkgList, orphans, if_true, orphanPackages, List.cons.injEq, true_and, List.map_eq_nil_iff,
    List.filter_eq_nil_iff, decide_eq_true_eq]
  intro pkg member
  rw [(packageList_spaced spaced pkg member).2]
  exact used pkg member

theorem pkgDelete_orphans_then_pkgList_empty_sample :
    deleteOrphansContext.bool "orphan" = true ∧ deleteOrphansContext.string "name" = "" ∧
      deleteOrphansContext.string "pkgNamespace" ≠ "" ∧
      ∃ s', pkgDelete crossStore deleteOrphansContext = .ok (s', ["Orphan packages deleted"]) ∧
        pkgList s' deleteOrphansContext = [["NAME", "BUILD_STATUS", "ENV"]] :=
  ⟨rfl, rfl, by decide, pkgDelete_orphans_then_pkgList_empty crossStore deleteOrphansContext rfl rfl
    (by decide)⟩

theorem deleteOrphansOf_of_used {pkgNamespace : String} (s : Store) (pkgs : List Package)
    (used : ∀ pkg ∈ pkgs, (getFunctionsByPackage s pkg.metadata.name pkgNamespace).length ≠ 0) :
    deleteOrphansOf pkgNamespace s pkgs = .ok s := by
  induction pkgs with
  | nil => rfl
  | cons pkg rest ih =>
    rw [deleteOrphansOf, if_neg (used pkg (List.mem_cons_self pkg rest))]
    exact ih fun other member => used other (List.mem_cons_of_mem pkg member)

/-- With a namespace given, `package delete --orphan` run again on the store it leaves deletes
nothing. -/
theorem pkgDelete_orphans_idempotent (s : Store) (c : Context) (orphans : c.bool "orphan" = true)
    (unnamed : c.string "name" = "") (spaced : c.string "pkgNamespace" ≠ "") :
    ∃ s', pkgDelete s c = .ok (s', ["Orphan packages deleted"]) ∧
      pkgDelete s' c = .ok (s', ["Orphan packages deleted"]) := by
  obtain ⟨s', ran, used⟩ := pkgDelete_orphans_leaves_used s c orphans unnamed spaced
  exact ⟨s', ran, by simp [pkgDelete, orphans, unnamed, deleteOrphanPkgs, deleteOrphansOf_of_used s' _ used]⟩

theorem pkgDelete_orphans_idempotent_sample :
    deleteOrphansContext.bool "orphan" = true ∧ deleteOrphansContext.string "name" = "" ∧
      deleteOrphansContext.string "pkgNamespace" ≠ "" ∧
      ∃ s', pkgDelete crossStore deleteOrphansContext = .ok (s', ["Orphan packages deleted"]) ∧
        pkgDelete s' deleteOrphansContext = .ok (s', ["Orphan packages deleted"]) :=
  ⟨rfl, rfl, by decide, pkgDelete_orphans_idempotent crossStore deleteOrphansContext rfl rfl (by decide)⟩

/-- The package `hello` of namespace `other`, and a function of `other` that uses it. -/
def otherHelloPackage : Package := { helloPackage with metadata := ⟨"hello", "other", 2⟩ }

def otherFunction : Function :=
  ⟨⟨"fn", "other", 3⟩, ⟨⟨⟨"hello", "other", 2⟩, "main"⟩, ⟨"python", "other"⟩⟩⟩

/-- Two packages named `hello`: the one of `default` is used by no function. -/
def sharedNameStore : Store :=
  ⟨[helloPackage, otherHelloPackage], [otherFunction], 3, by decide, by decide⟩

/-- `--orphan` over every namespace: `--pkgNamespace ""`. -/
def allNamespacesOrphansContext : Context :=
  ⟨fun name => if name = "pkgNamespace" then some "" else none, fun _ => none,
    fun name => if name = "orphan" then some true else none⟩

theorem pkgDelete_orphans_all_namespaces_spare_listed_orphan :
    pkgList sharedNameStore allNamespacesOrphansContext =
        [["NAME", "BUILD_STATUS", "ENV"], row helloPackage] ∧
      pkgDelete sharedNameStore allNamespacesOrphansContext =
        .ok (sharedNameStore, ["Orphan packages deleted"]) :=
  ⟨rfl, rfl⟩

end FissionCli.Delete
