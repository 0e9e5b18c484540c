import TwinExporter.Cleanup
import TwinExporter.Gate

/-!
# The reconciliation pass

The body of the `while True` loop of `exporter.py` after the cleanup: for each source rule, inside
a `try`, the things of the source, the features of each thing, and for each feature that the
policy exports, the shell of its thing (at the first such feature), its submodel, the signature
gate, and an upsert of each selected property.

A piece of the pass is a `World → Except World World`: it returns the world it leaves, or raises
with it, since a request already sent stays sent. `caught` is the world after `except: continue`.
`thing_has_exports` is the flag of the feature loop; it turns true at the first exported feature,
so the loop computes it from the resolver's answer.
-/

namespace TwinExporter

/-- The world after a piece of the pass, whether it returned or raised. -/
def caught : Except World World → World
  | .ok w => w
  | .error w => w

/-- A piece that returned leaves its world. -/
@[simp] theorem caught_ok (w : World) : caught (.ok w) = w := rfl

/-- A piece that raised leaves the world of the raise. -/
@[simp] theorem caught_error (w : World) : caught (.error w) = w := rfl

/-- Whether the resolver exports the feature. -/
def Resolution.isFound : Resolution → Bool
  | .found _ => true
  | _ => false

/-- `filtered_properties`: every property with `"*"`, otherwise those in the list, in order. -/
def filterProperties (sel : List String) (all : Dict JsonValue) : List (String × JsonValue) :=
  if "*" ∈ sel then all.entries else all.entries.filter (·.1 ∈ sel)

/-- A filtered property is a selected property of the bundle. -/
theorem mem_filterProperties {sel : List String} {all : Dict JsonValue} {p : String}
    {v : JsonValue} : (p, v) ∈ filterProperties sel all ↔ ("*" ∈ sel ∨ p ∈ sel) ∧ (p, v) ∈ all.entries := by
  unfold filterProperties
  split <;> simp_all [and_comm]

section Reconcile

variable (config : Config) (snap : Snapshot) (host : Host) (now : Nat)

/-- `if not get_basyx_shell(thing_id): create_basyx_shell(thing_id)`; `encode_id(None)` raises. -/
def ensureShell (thing_id : Option String) (w : World) : Except World World :=
  match thing_id with
  | none => .error w
  | some t => if (w.store.shells (encodeId t)).isSome then .ok w else w.post (.createShell t)

/-- `create_basyx_submodel(thing_id, submodel_id)`: the submodel, then its reference in the shell
of the thing. -/
def createBasyxSubmodel (thing_id : Option String) (submodel_id : String) (w : World) :
    Except World World :=
  (w.post (.createSubmodel submodel_id)).bind fun w =>
    match thing_id with
    | none => .error w
    | some t => w.post (.postSubmodelRef (encodeId t) submodel_id)

/-- `if not get_basyx_submodel(submodel_id): create_basyx_submodel(thing_id, submodel_id)`. -/
def ensureSubmodel (thing_id : Option String) (submodel_id : String) (w : World) :
    Except World World :=
  if (w.store.submodels (encodeId submodel_id)).isSome then .ok w
  else createBasyxSubmodel thing_id submodel_id w

/-- `update_basyx_element(submodel_id, element_id, value)`: a `GET` of the element, then a `POST`
with `str(value)` on `404`, and otherwise a `PATCH` of `$value` with `json=f'"{value}"'`. -/
def updateBasyxElement (submodel_id element_id : String) (value : JsonValue) (w : World) :
    Except World World :=
  if w.store.hasElement (encodeId submodel_id) element_id then
    w.post (.updateElement (encodeId submodel_id) element_id ("\"" ++ host.str value ++ "\""))
  else w.post (.createElement (encodeId submodel_id) element_id (host.str value))

/-- The `for key, value in filtered_properties.items()` loop. -/
def upsertElements (submodel_id : String) : List (String × JsonValue) → World → Except World World
  | [], w => .ok w
  | (k, v) :: rest, w =>
    (updateBasyxElement host submodel_id k v w).bind (upsertElements submodel_id rest)

/-- One exported feature: the shell unless an earlier feature made sure of it, the submodel, the
gate when `verify_signatures` is on, and the upsert of the filtered properties. -/
def exportFeature (thing_id : Option String) (hasExports : Bool) (fid : String)
    (d : Feature) (sel : List String) (w : World) : Except World World :=
  let smId := submodelId (pyFormat thing_id) fid
  ((if hasExports then .ok w else ensureShell thing_id w).bind fun w =>
    ensureSubmodel thing_id smId w).bind fun w =>
      if config.verifySignatures && !verifyFeatureSignature host d config.publicKeyPath then .ok w
      else upsertElements host smId (filterProperties sel d.bundle) w

/-- One iteration of the feature loop: a raise of the resolver, a skipped feature, or an exported
one. -/
def reconcileFeature (url : String) (thing_id : Option String) (hasExports : Bool) (fid : String)
    (d : Feature) (w : World) : Except World World :=
  match resolve config host now url thing_id fid with
  | .raised => .error w
  | .unconfigured => .ok w
  | .found sel => exportFeature config host thing_id hasExports fid d sel w

/-- The loop over the features of a thing, with `thing_has_exports`. -/
def reconcileFeatures (url : String) (thing_id : Option String) :
    Bool → List (String × Feature) → World → Except World World
  | _, [], w => .ok w
  | h, (fid, d) :: rest, w =>
    (reconcileFeature config host now url thing_id h fid d w).bind
      (reconcileFeatures url thing_id (h || (resolve config host now url thing_id fid).isFound) rest)

/-- One thing of a source rule: its features, fetched at `f"{thing_id}"`, then the feature loop. -/
def reconcileThing (s : SourceRule) (thing : Thing) (w : World) : Except World World :=
  match snap.features s.url s.auth (pyFormat thing.thingId) with
  | none => .error w
  | some feats => reconcileFeatures config host now s.url thing.thingId false feats.entries w

/-- The loop over the things of a source rule. -/
def reconcileThings (s : SourceRule) : List Thing → World → Except World World
  | [], w => .ok w
  | th :: ths, w => (reconcileThing config snap host now s th w).bind (reconcileThings s ths)

/-- One source rule, inside its `try`: a raise ends the source, and the next one runs. -/
def reconcileSource (s : SourceRule) (w : World) : World :=
  caught <| match snap.things s.url s.auth with
    | none => .error w
    | some ths => reconcileThings config snap host now s ths w

/-- The reconciliation pass: nothing without a BaSyx URL, otherwise every source rule in order. -/
def reconcile (w : World) : World :=
  if !config.basyxConfigured then w
  else config.sourceRules.foldl (fun w s => reconcileSource config snap host now s w) w

/-- One cycle of the scheduler: the cleanup pass, then the reconciliation pass. -/
def cycle (w : World) : World :=
  reconcile config snap host now (cleanupBasyxResources config snap host now w)

end Reconcile

end TwinExporter
