import Mathlib.Data.List.Basic

/-! The records the package commands of the Fission CLI read and write (`fv1.Package`,
`fv1.Function`, `metav1.ObjectMeta`), cut down to the fields these commands touch.
A resource version is the store's revision counter at the write that produced it. -/

namespace FissionCli

@[simp] theorem length_eq_zero_iff (s : String) : s.length = 0 ↔ s = "" := by
  cases s
  simp [String.ext_iff]

/-- `strings.HasPrefix`. -/
def hasPrefix (s pre : String) : Bool := pre.data.isPrefixOf s.data

/-- What the controller answers a call it refuses; `unreachable` is a call lost in transport. -/
inductive ApiError where
  | notFound
  | conflict
  | alreadyExists
  | unreachable
  deriving DecidableEq, Repr

/-- Why a command stopped: `log.Fatal`, `util.CheckErr`, or an error returned to the framework. -/
inductive Fatal where
  | log (msg : String)
  | checkErr (action : String) (err : String)
  | api (action : String) (err : ApiError)
  | errors (errs : List String)
  | returned (err : ApiError)
  | returnedHost (err : String)
  deriving DecidableEq, Repr

section Except

variable {ε α β : Type}

/-- The bind of `Except` succeeds exactly when both halves do. -/
theorem bind_eq_ok {x : Except ε α} {f : α → Except ε β} {b : β} :
    x >>= f = .ok b ↔ ∃ a, x = .ok a ∧ f a = .ok b := by
  cases x <;> simp [bind, Except.bind]

@[simp] theorem ok_bind (a : α) (f : α → Except ε β) : (Except.ok a >>= f) = f a := rfl

@[simp] theorem error_bind (e : ε) (f : α → Except ε β) : (Except.error e >>= f) = .error e := rfl

@[simp] theorem throw_bind (e : ε) (f : α → Except ε β) : (throw e >>= f) = .error e := rfl

@[simp] theorem pure_eq_ok (a : α) : (pure a : Except ε α) = .ok a := rfl

theorem map_eq_ok {x : Except ε α} {f : α → β} {b : β} :
    f <$> x = .ok b ↔ ∃ a, x = .ok a ∧ f a = b := by
  cases x <;> simp [Functor.map, Except.map]

@[simp] theorem mapError_eq_ok {ε' : Type} {f : ε → ε'} {x : Except ε α} {a : α} :
    x.mapError f = .ok a ↔ x = .ok a := by
  cases x <;> simp [Except.mapError]

end Except

/-- `util.CheckErr(err, action)`: a failed call stops the command, naming the action. -/
def checkErr {α : Type} (action : String) : Except String α → Except Fatal α :=
  Except.mapError (Fatal.checkErr action)

@[simp] theorem checkErr_ok {α : Type} (action : String) (a : α) :
    checkErr action (.ok a) = .ok a := rfl

@[simp] theorem checkErr_error {α : Type} (action err : String) :
    (checkErr action (.error err) : Except Fatal α) = .error (.checkErr action err) := rfl

/-- `util.CheckErr(err, action)` on an error of the controller client. -/
def apiCheck {α : Type} (action : String) : Except ApiError α → Except Fatal α :=
  Except.mapError (Fatal.api action)

@[simp] theorem apiCheck_ok {α : Type} (action : String) (a : α) :
    apiCheck action (.ok a) = .ok a := rfl

@[simp] theorem apiCheck_error {α : Type} (action : String) (err : ApiError) :
    (apiCheck action (.error err) : Except Fatal α) = .error (.api action err) := rfl

@[simp] theorem apiCheck_eq_ok {α : Type} {action : String} {x : Except ApiError α} {a : α} :
    apiCheck action x = .ok a ↔ x = .ok a := by
  cases x <;> simp [apiCheck, Except.mapError]

@[simp] theorem checkErr_eq_ok {α : Type} {action : String} {x : Except String α} {a : α} :
    checkErr action x = .ok a ↔ x = .ok a := by
  cases x <;> simp [checkErr, Except.mapError]

/-- `metav1.NamespaceDefault`. -/
def namespaceDefault : String := "default"

/-- A `cli.Context`: each flag given on the command line, under the name the code reads it by. -/
structure Context where
  strings : String → Option String
  stringSlices : String → Option (List String)
  bools : String → Option Bool

/-- The declared defaults of the string flags: `pkgNamespace` and `envNamespace` are `default`. -/
def stringFlagDefault (name : String) : String :=
  if name = "pkgNamespace" ∨ name = "envNamespace" then namespaceDefault else ""

/-- `c.String(name)`. -/
def Context.string (c : Context) (name : String) : String :=
  (c.strings name).getD (stringFlagDefault name)

/-- `c.StringSlice(name)`. -/
def Context.stringSlice (c : Context) (name : String) : List String :=
  (c.stringSlices name).getD []

/-- `c.Bool(name)`. -/
def Context.bool (c : Context) (name : String) : Bool := (c.bools name).getD false

/-- The context of a command given `--name` and no other flag. -/
def Context.named (name : String) : Context :=
  ⟨fun flag => if flag = "name" then some name else none, fun _ => none, fun _ => none⟩

structure ObjectMeta where
  name : String
  «namespace» : String
  resourceVersion : Nat
  deriving DecidableEq, Repr

/-- `fv1.ArchiveType`; `unset` is the zero value, the type of an archive never given. -/
inductive ArchiveType where
  | unset
  | literal
  | url
  deriving DecidableEq, Repr

structure Checksum where
  type : String
  sum : String
  deriving DecidableEq, Repr

structure Archive where
  type : ArchiveType
  literal : List UInt8
  url : String
  checksum : Checksum
  deriving DecidableEq, Repr

/-- The zero `fv1.Archive`. -/
def Archive.empty : Archive := ⟨.unset, [], "", ⟨"", ""⟩⟩

structure EnvironmentReference where
  name : String
  «namespace» : String
  deriving DecidableEq, Repr

inductive BuildStatus where
  | none
  | pending
  | running
  | succeeded
  | failed
  deriving DecidableEq, Repr

/-- The text of an `fv1.BuildStatus` constant. -/
def BuildStatus.text : BuildStatus → String
  | .none => "none"
  | .pending => "pending"
  | .running => "running"
  | .succeeded => "succeeded"
  | .failed => "failed"

structure PackageStatus where
  buildStatus : BuildStatus
  buildLog : String
  deriving DecidableEq, Repr

structure PackageSpec where
  environment : EnvironmentReference
  source : Archive
  deployment : Archive
  buildCommand : String
  deriving DecidableEq, Repr

structure Package where
  metadata : ObjectMeta
  spec : PackageSpec
  status : PackageStatus
  deriving DecidableEq, Repr

structure PackageRef where
  name : String
  «namespace» : String
  resourceVersion : Nat
  deriving DecidableEq, Repr

structure FunctionPackageRef where
  packageRef : PackageRef
  functionName : String
  deriving DecidableEq, Repr

structure FunctionSpec where
  package : FunctionPackageRef
  environment : EnvironmentReference
  deriving DecidableEq, Repr

structure Function where
  metadata : ObjectMeta
  spec : FunctionSpec
  deriving DecidableEq, Repr

/-- The function with `Spec.Package.PackageRef.ResourceVersion` set. -/
def Function.repin (fn : Function) (resourceVersion : Nat) : Function :=
  { fn with spec := { fn.spec with package := { fn.spec.package with
      packageRef := { fn.spec.package.packageRef with resourceVersion := resourceVersion } } } }

@[simp] theorem Function.repin_metadata (fn : Function) (v : Nat) :
    (fn.repin v).metadata = fn.metadata := rfl

@[simp] theorem Function.repin_name (fn : Function) (v : Nat) :
    (fn.repin v).spec.package.packageRef.name = fn.spec.package.packageRef.name := rfl

@[simp] theorem Function.repin_resourceVersion (fn : Function) (v : Nat) :
    (fn.repin v).spec.package.packageRef.resourceVersion = v := rfl

/-- A record kind the store keeps: its metadata, and the record with a new resource version. -/
class Resource (α : Type) where
  objectMeta : α → ObjectMeta
  stamp : α → Nat → α
  objectMeta_stamp : ∀ o v, objectMeta (stamp o v) = { objectMeta o with resourceVersion := v }

instance : Resource Package where
  objectMeta p := p.metadata
  stamp p v := { p with metadata := { p.metadata with resourceVersion := v } }
  objectMeta_stamp _ _ := rfl

instance : Resource Function where
  objectMeta fn := fn.metadata
  stamp fn v := { fn with metadata := { fn.metadata with resourceVersion := v } }
  objectMeta_stamp _ _ := rfl

@[simp] theorem Package.stamp_metadata (p : Package) (v : Nat) :
    (Resource.stamp p v).metadata = { p.metadata with resourceVersion := v } := rfl

@[simp] theorem Package.stamp_spec (p : Package) (v : Nat) : (Resource.stamp p v).spec = p.spec := rfl

@[simp] theorem Package.stamp_status (p : Package) (v : Nat) :
    (Resource.stamp p v).status = p.status := rfl

@[simp] theorem Function.stamp_spec (fn : Function) (v : Nat) :
    (Resource.stamp fn v).spec = fn.spec := rfl

section Resource

variable {α : Type} [Resource α]

open Resource

/-- The store's key of a record: its name and namespace. -/
def key (o : α) : String × String := ((objectMeta o).name, (objectMeta o).namespace)

def version (o : α) : Nat := (objectMeta o).resourceVersion

/-- The list calls read the empty namespace as every namespace, as the Kubernetes API does. -/
def inNamespace (ns : String) (o : α) : Bool := ns = "" || (objectMeta o).namespace = ns

@[simp] theorem key_stamp (o : α) (v : Nat) : key (stamp o v) = key o := by
  simp [key, objectMeta_stamp]

@[simp] theorem version_stamp (o : α) (v : Nat) : version (stamp o v) = v := by
  simp [version, objectMeta_stamp]

@[simp] theorem inNamespace_stamp (ns : String) (o : α) (v : Nat) :
    inNamespace ns (stamp o v) = inNamespace ns o := by
  simp [inNamespace, objectMeta_stamp]

end Resource

@[simp] theorem key_repin (fn : Function) (v : Nat) : key (fn.repin v) = key fn := rfl

@[simp] theorem version_repin (fn : Function) (v : Nat) : version (fn.repin v) = version fn := rfl

@[simp] theorem inNamespace_repin (ns : String) (fn : Function) (v : Nat) :
    inNamespace ns (fn.repin v) = inNamespace ns fn := rfl

end FissionCli
