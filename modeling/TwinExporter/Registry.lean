import TwinExporter.Codec
import TwinExporter.Json
import TwinExporter.Policy

/-!
# The two registries

The exporter reads the source registry (Ditto) and writes the target registry (BaSyx). A
`Snapshot` is what Ditto answers to the two requests of `get_ditto_things` and
`get_ditto_features`, each keyed by its URL and the `Authorization` header of the source rule;
`none` is a request that raises (`raise_for_status` or a transport error).

BaSyx is a `Store`: shells and submodels, keyed by the `encode_id` token that the exporter puts in
the URL, a shell holding the ids of the submodels referenced from it, and a submodel holding its
elements' values. A `Call` is one request that changes BaSyx, and `Store.apply` is what BaSyx does
with it, per §6: a create answers `409` on an existing object, a call on a missing object `404`,
and an update of `$value` stores the JSON value of its body. The exporter's side is a `World`: the
store and the list of calls sent so far.
-/

namespace TwinExporter

/-- A shell, as the exporter uses it: the submodel ids of the references posted to it. -/
structure Shell where
  /-- The `value` of each `submodel-refs` key, in the order they were posted. -/
  submodelRefs : List String
  deriving DecidableEq, Repr

/-- A submodel: the value of each of its elements, by `idShort`. -/
@[ext]
structure Submodel where
  /-- The stored value of each element. -/
  elements : String → Option String

/-- A submodel without elements, as `POST /submodels` creates it. -/
def Submodel.empty : Submodel := ⟨fun _ => none⟩

/-- The submodel with element `p` set to `v`. -/
def Submodel.set (sm : Submodel) (p : String) (v : Option String) : Submodel :=
  ⟨fun q => if q = p then v else sm.elements q⟩

/-- The target registry: shells and submodels by their `encode_id` tokens. -/
@[ext]
structure Store where
  /-- The shell at each token. -/
  shells : String → Option Shell
  /-- The submodel at each token. -/
  submodels : String → Option Submodel

/-- BaSyx with no shell and no submodel. -/
def Store.empty : Store := ⟨fun _ => none, fun _ => none⟩

/-- The store with the shell at token `k` replaced. -/
def Store.setShell (σ : Store) (k : String) (sh : Option Shell) : Store :=
  { σ with shells := fun k' => if k' = k then sh else σ.shells k' }

/-- The store with the submodel at token `k` replaced. -/
def Store.setSubmodel (σ : Store) (k : String) (sm : Option Submodel) : Store :=
  { σ with submodels := fun k' => if k' = k then sm else σ.submodels k' }

/-- Whether element `p` of the submodel at token `k` exists: `GET` of it does not answer `404`. -/
def Store.hasElement (σ : Store) (k p : String) : Bool := ((σ.submodels k).bind (·.elements p)).isSome

/-- A request that changes BaSyx. Shells and submodels are addressed by token, except in the
payload of a create, which carries the raw id. -/
inductive Call where
  /-- `POST /shells` with payload `id`. -/
  | createShell (thing_id : String)
  /-- `POST /submodels` with payload `id`. -/
  | createSubmodel (submodel_id : String)
  /-- `POST /shells/{shell}/submodel-refs` naming a submodel id. -/
  | postSubmodelRef (shell submodel_id : String)
  /-- `POST /submodels/{submodel}/submodel-elements` with payload `idShort` and `value`. -/
  | createElement (submodel idShort value : String)
  /-- `PATCH /submodels/{submodel}/submodel-elements/{element_id}/$value` with a JSON body. -/
  | updateElement (submodel element_id body : String)
  /-- `DELETE /shells/{shell}`. -/
  | deleteShell (shell : String)
  /-- `DELETE /submodels/{submodel}`. -/
  | deleteSubmodel (submodel : String)
  /-- `DELETE /submodels/{submodel}/submodel-elements/{element_id}`. -/
  | deleteElement (submodel element_id : String)
  deriving DecidableEq, Repr

/-- A place in BaSyx: a shell or a submodel by its token, or an element of a submodel by the
submodel's token and its `idShort`. -/
inductive Slot where
  /-- `/shells/{k}`. -/
  | shell (k : String)
  /-- `/submodels/{k}`. -/
  | submodel (k : String)
  /-- `/submodels/{k}/submodel-elements/{p}`. -/
  | element (k p : String)
  deriving DecidableEq, Repr

/-- The place that a call creates, writes or deletes. -/
def Call.target : Call → Slot
  | .createShell id => .shell (encodeId id)
  | .createSubmodel id => .submodel (encodeId id)
  | .postSubmodelRef k _ => .shell k
  | .createElement k p _ => .element k p
  | .updateElement k p _ => .element k p
  | .deleteShell k => .shell k
  | .deleteSubmodel k => .submodel k
  | .deleteElement k p => .element k p

/-- Deleting place `x` removes place `y`: `y` is `x`, or an element of the submodel `x`. -/
def Slot.Covers : Slot → Slot → Prop
  | .submodel k, .element k' _ => k' = k
  | x, y => y = x

/-- What BaSyx does with a call: whether it answers with a success status, and the store after. -/
def Store.apply (σ : Store) : Call → Bool × Store
  | .createShell id =>
    if (σ.shells (encodeId id)).isSome then (false, σ)
    else (true, σ.setShell (encodeId id) (some ⟨[]⟩))
  | .createSubmodel id =>
    if (σ.submodels (encodeId id)).isSome then (false, σ)
    else (true, σ.setSubmodel (encodeId id) (some .empty))
  | .postSubmodelRef k id =>
    match σ.shells k with
    | none => (false, σ)
    | some sh => (true, σ.setShell k (some ⟨sh.submodelRefs ++ [id]⟩))
  | .createElement k p v =>
    match σ.submodels k with
    | none => (false, σ)
    | some sm => if (sm.elements p).isSome then (false, σ) else (true, σ.setSubmodel k (sm.set p v))
  | .updateElement k p body =>
    match σ.submodels k with
    | none => (false, σ)
    | some sm => if (sm.elements p).isSome then (true, σ.setSubmodel k (sm.set p body)) else (false, σ)
  | .deleteShell k => ((σ.shells k).isSome, σ.setShell k none)
  | .deleteSubmodel k => ((σ.submodels k).isSome, σ.setSubmodel k none)
  | .deleteElement k p =>
    match σ.submodels k with
    | none => (false, σ)
    | some sm => ((sm.elements p).isSome, σ.setSubmodel k (sm.set p none))

/-- The exporter's view of BaSyx: the store, and the calls sent so far, oldest first. -/
structure World where
  /-- The target registry. -/
  store : Store
  /-- The calls sent. -/
  log : List Call

/-- Send a call: BaSyx applies it, and it joins the log whatever the answer. -/
def World.send (w : World) (c : Call) : Bool × World :=
  ((w.store.apply c).1, ⟨(w.store.apply c).2, w.log ++ [c]⟩)

/-- Send a call and `raise_for_status`: a raise (`.error`) keeps the world the call left. -/
def World.post (w : World) (c : Call) : Except World World :=
  if (w.send c).1 then .ok (w.send c).2 else .error (w.send c).2

/-- A thing of `GET /things`: its `thingId`, if it has one. -/
structure Thing where
  /-- `thing.get("thingId")`. -/
  thingId : Option String
  deriving DecidableEq, Repr

/-- A feature of `GET /things/{id}/features`: its `properties`, if it has them. -/
structure Feature where
  /-- `feature_details.get("properties")`. -/
  properties : Option (Dict JsonValue)

/-- `feature_details.get("properties", {})`. -/
def Feature.bundle (f : Feature) : Dict JsonValue := f.properties.getD .empty

/-- What the source registries answer, by source URL and `Authorization` header. -/
structure Snapshot where
  /-- `get_ditto_things(source_url, headers)`. -/
  things : String → String → Option (List Thing)
  /-- `get_ditto_features(thing_id, source_url, headers)`, by the thing id as the URL writes it. -/
  features : String → String → String → Option (Dict Feature)

/-- `f"{thing_id}"`: a missing id is written `None`. -/
def pyFormat : Option String → String
  | none => "None"
  | some s => s

/-- `f"{thing_id}"` of an id is the id. -/
@[simp] theorem pyFormat_some (s : String) : pyFormat (some s) = s := rfl

/-- What the exporter takes from Python and its host: `datetime.fromisoformat`, `str` on a property
value, the public key stored at a path, and RSA-PSS/SHA-256 verification of a signature over a
message with a public key. -/
structure Host where
  /-- `datetime.fromisoformat`. -/
  fromisoformat : String → Option DateTime
  /-- `str(value)`, which is also what an f-string writes for a value. -/
  str : JsonValue → String
  /-- `load_pem_public_key` on the file at a path: `none` when it is missing or not a key. -/
  publicKey : String → Option (List UInt8)
  /-- `public_key.verify(signature, message, PSS(MGF1(SHA256), MAX_LENGTH), SHA256)` succeeds. -/
  verify : List UInt8 → List UInt8 → List UInt8 → Bool

/-- Every fetch for source rule `s` succeeds: its things, and the features of each of them. -/
def Snapshot.ServesRule (snap : Snapshot) (s : SourceRule) : Prop :=
  ∃ ths, snap.things s.url s.auth = some ths ∧
    ∀ th ∈ ths, (snap.features s.url s.auth (pyFormat th.thingId)).isSome

/-- Every fetch from the sources of the policy succeeds. -/
def Snapshot.Serves (snap : Snapshot) (config : Config) : Prop :=
  ∀ s ∈ config.sourceRules, snap.ServesRule s

/-! ## What each call does -/

section Calls

variable (σ : Store)

/-- Setting a shell changes that shell only. -/
@[simp] theorem setShell_shells (k : String) (sh : Option Shell) (k' : String) :
    (σ.setShell k sh).shells k' = if k' = k then sh else σ.shells k' := rfl

/-- Setting a shell keeps the submodels. -/
@[simp] theorem setShell_submodels (k : String) (sh : Option Shell) :
    (σ.setShell k sh).submodels = σ.submodels := rfl

/-- Setting a submodel changes that submodel only. -/
@[simp] theorem setSubmodel_submodels (k : String) (sm : Option Submodel) (k' : String) :
    (σ.setSubmodel k sm).submodels k' = if k' = k then sm else σ.submodels k' := rfl

/-- Setting a submodel keeps the shells. -/
@[simp] theorem setSubmodel_shells (k : String) (sm : Option Submodel) :
    (σ.setSubmodel k sm).shells = σ.shells := rfl

/-- Setting an element changes that element only. -/
@[simp] theorem set_elements (sm : Submodel) (p : String) (v : Option String) (q : String) :
    (sm.set p v).elements q = if q = p then v else sm.elements q := rfl

/-- A sent call joins the log. -/
@[simp] theorem send_log (w : World) (c : Call) : (w.send c).2.log = w.log ++ [c] := rfl

/-- A sent call is applied to the store. -/
@[simp] theorem send_store (w : World) (c : Call) : (w.send c).2.store = (w.store.apply c).2 := rfl

end Calls

end TwinExporter
