import TwinExporter.Isolation

/-!
# The cycle reads BaSyx only through which places are present

`exporter.py` reads BaSyx with `GET`s whose answer it uses only through the status: whether a
shell, a submodel or an element exists. It never reads a value. What a request does to a value
depends on which places are present and on nothing else (`Store.value_apply`): a create or an
update writes its value when BaSyx accepts it, a delete removes it, and every other request leaves
it. From two stores with the same places present, a cycle therefore sends the same calls, leaves
the same places, and every element afterwards holds the same value in both runs, or in each run
the value it held before (`cycle_reads_presence`).

A client that only patches values (`PATCH .../$value`, what the attack script sends to an element
that exists) changes no place. Over any interleaving of the exporter's rounds with such patches,
the exporter sends the calls it sends without them, and only the patched elements can hold other
values (`runEvents_patches`).
-/

namespace TwinExporter

/-! ## What a call does to a value -/

/-- What a call writes at element `p` of the submodel at token `k`, from the places present before
it: `some v` when the element holds `v` after the call, whatever it held, and `none` when the call
leaves it as it was. A created submodel has no elements, and it is only created when absent. -/
def Call.written (c : Call) (h : Slot → Bool) (k p : String) : Option (Option String) :=
  match c with
  | .createElement k' p' v | .updateElement k' p' v =>
    if k' = k ∧ p' = p then (if c.accepted h then some (some v) else none) else none
  | .deleteSubmodel k' => if k' = k then some none else none
  | .deleteElement k' p' => if k' = k ∧ p' = p then some none else none
  | _ => none

section Values

variable (σ : Store)

/-- Setting a submodel changes the values of its elements only. -/
theorem Store.value_setSubmodel (k' : String) (o : Option Submodel) (k p : String) :
    (σ.setSubmodel k' o).value k p = if k = k' then o.bind (·.elements p) else σ.value k p := by
  simp only [Store.value, setSubmodel_submodels]
  split_ifs <;> rfl

/-- Setting one element of a present submodel changes that element's value only. -/
theorem Store.value_setSubmodel_set {k' : String} {sm : Submodel} (hs : σ.submodels k' = some sm)
    (q : String) (x : Option String) (k p : String) :
    (σ.setSubmodel k' (some (sm.set q x))).value k p = if k = k' ∧ p = q then x else σ.value k p := by
  rw [Store.value_setSubmodel]
  by_cases hk : k = k' <;> simp [hk, hs, Store.value]

/-- A call changes the value of an element as `Call.written` says. -/
theorem Store.value_apply (c : Call) (k p : String) :
    (σ.apply c).2.value k p = (c.written σ.has k p).getD (σ.value k p) := by
  cases c with
  | createSubmodel id =>
    simp only [Store.apply, Call.written, Option.getD_none]
    split
    · rfl
    · rw [Store.value_setSubmodel]
      split_ifs with hk
      · simp_all [Store.value, Submodel.empty]
      · rfl
  | createElement k' q v | updateElement k' q v | deleteElement k' q =>
    simp only [Store.apply, Call.written, Call.accepted, Store.has, Store.hasElement]
    by_cases hkp : k' = k ∧ q = p
    · obtain ⟨rfl, rfl⟩ := hkp
      split
      next hs => simp [hs, Store.value]
      next sm hs => split_ifs <;> simp_all [σ.value_setSubmodel_set hs, Store.value]
    · have hkp' : ¬(k = k' ∧ p = q) := fun ⟨h₁, h₂⟩ => hkp ⟨h₁.symm, h₂.symm⟩
      simp only [hkp, if_false, Option.getD_none]
      split
      · rfl
      · (try split_ifs) <;> simp only [σ.value_setSubmodel_set ‹_›, if_neg hkp']
  | deleteSubmodel k' =>
    simp only [Store.apply, Call.written, Store.value_setSubmodel]
    split_ifs <;> simp_all
  | createShell | postSubmodelRef | deleteShell =>
    simp only [Store.apply, Call.written, Option.getD_none]
    repeat' split
    all_goals rfl

/-- A call that writes nothing at an element leaves its value. -/
theorem Store.value_apply_of_written {c : Call} {k p : String} (h : c.written σ.has k p = none) :
    (σ.apply c).2.value k p = σ.value k p := by
  rw [Store.value_apply, h, Option.getD_none]

end Values

/-! ## Two stores with the same places -/

section Oblivious

variable {σ₁ σ₂ : Store}

/-- The same call from two stores with the same places leaves the same places, and writes each
element in both or in neither. -/
theorem Store.apply_of_has_eq (h : σ₁.has = σ₂.has) (c : Call) :
    (σ₁.apply c).2.has = (σ₂.apply c).2.has ∧ ∀ k p,
      (σ₁.apply c).2.value k p = (σ₂.apply c).2.value k p ∨
        ((σ₁.apply c).2.value k p = σ₁.value k p ∧ (σ₂.apply c).2.value k p = σ₂.value k p) := by
  refine ⟨by rw [Store.has_apply_eq, Store.has_apply_eq, h], fun k p => ?_⟩
  rw [Store.value_apply, Store.value_apply, h]
  cases c.written σ₂.has k p
  · exact .inr ⟨rfl, rfl⟩
  · exact .inl rfl

/-- The same calls from two worlds with the same places leave the same places, and every element
holds the same value in both, or in each the value it held before. -/
theorem sendAll_of_has_eq : ∀ (cs : List Call) {w₁ w₂ : World}, w₁.store.has = w₂.store.has →
    (sendAll cs w₁).store.has = (sendAll cs w₂).store.has ∧ ∀ k p,
      (sendAll cs w₁).store.value k p = (sendAll cs w₂).store.value k p ∨
        ((sendAll cs w₁).store.value k p = w₁.store.value k p ∧
          (sendAll cs w₂).store.value k p = w₂.store.value k p)
  | [], _, _, h => ⟨h, fun _ _ => .inr ⟨rfl, rfl⟩⟩
  | c :: cs, w₁, w₂, h => by
    obtain ⟨hc, hcv⟩ := Store.apply_of_has_eq h c
    obtain ⟨hs, hsv⟩ := @sendAll_of_has_eq cs (w₁.send c).2 (w₂.send c).2 hc
    refine ⟨hs, fun k p => ?_⟩
    simp only [sendAll_cons, send_store] at hsv ⊢
    rcases hsv k p with e | ⟨e₁, e₂⟩
    · exact .inl e
    · rw [e₁, e₂]
      exact hcv k p

end Oblivious

section Cycle

variable (config : Config) (snap : Snapshot) (host : Host) (now : Nat)

/-- Stores with the same places agree on the set of all places. -/
theorem Store.agreeOn_univ {σ₁ σ₂ : Store} (h : σ₁.has = σ₂.has) : σ₁.AgreeOn (fun _ => True) σ₂ :=
  fun x _ => congrFun h x

/-- The source loop sends the same calls from two worlds with the same places. -/
theorem foldl_reconcileSource_of_has_eq : ∀ (ss : List SourceRule) {w₁ w₂ : World},
    w₁.store.has = w₂.store.has → ∃ cs,
      ss.foldl (fun w s => reconcileSource config snap host now s w) w₁ = sendAll cs w₁ ∧
        ss.foldl (fun w s => reconcileSource config snap host now s w) w₂ = sendAll cs w₂
  | [], _, _, _ => ⟨[], rfl, rfl⟩
  | s :: ss, w₁, w₂, h => by
    obtain ⟨cs, -, h₁, h₂⟩ : ∃ cs, _ ∧ reconcileSource config snap host now s w₁ = sendAll cs w₁ ∧
        reconcileSource config snap host now s w₂ = sendAll cs w₂ :=
      reconcileSource_same (fun _ _ _ => trivial) (fun _ _ => trivial) (Store.agreeOn_univ h)
    obtain ⟨ds, e₁, e₂⟩ := @foldl_reconcileSource_of_has_eq ss
      (sendAll cs w₁) (sendAll cs w₂) (sendAll_of_has_eq cs h).1
    exact ⟨cs ++ ds, by simp only [List.foldl_cons, h₁, e₁, sendAll_append],
      by simp only [List.foldl_cons, h₂, e₂, sendAll_append]⟩

/-- A cycle sends the same calls from two worlds with the same places. -/
theorem cycle_sameCalls {w₁ w₂ : World} (h : w₁.store.has = w₂.store.has) : ∃ cs,
    cycle config snap host now w₁ = sendAll cs w₁ ∧ cycle config snap host now w₂ = sendAll cs w₂ := by
  have hc := (sendAll_of_has_eq (cleanupCalls config snap host now) h).1
  simp only [cycle, reconcile, cleanup_eq_sendAll]
  split
  · exact ⟨_, rfl, rfl⟩
  · obtain ⟨ds, e₁, e₂⟩ := foldl_reconcileSource_of_has_eq config snap host now config.sourceRules hc
    exact ⟨_ ++ ds, by rw [e₁, sendAll_append], by rw [e₂, sendAll_append]⟩

/-- `exporter.py` reads BaSyx only through which places are present: from two worlds with the same
places, whatever their values, a cycle sends the same calls, leaves the same places, and each
element holds the same value in both runs, or in each run the value it held before. -/
theorem cycle_reads_presence {w₁ w₂ : World} (h : w₁.store.has = w₂.store.has) :
    ∃ cs, cycle config snap host now w₁ = sendAll cs w₁ ∧
      cycle config snap host now w₂ = sendAll cs w₂ ∧
      (cycle config snap host now w₁).store.has = (cycle config snap host now w₂).store.has ∧
      ∀ k p, (cycle config snap host now w₁).store.value k p =
          (cycle config snap host now w₂).store.value k p ∨
        ((cycle config snap host now w₁).store.value k p = w₁.store.value k p ∧
          (cycle config snap host now w₂).store.value k p = w₂.store.value k p) := by
  obtain ⟨cs, e₁, e₂⟩ := cycle_sameCalls config snap host now h
  rw [e₁, e₂]
  exact ⟨cs, rfl, rfl, sendAll_of_has_eq cs h⟩

/-- `mirroredStore true` after another client patches element `p` of `t:f` with `ABCD`. -/
def patchedStore : Store := ((mirroredStore true).apply (.updateElement (encodeId "t:f") "p" "ABCD")).2

/-- A cycle of the mirror policy from the mirrored twin and from the twin that another client
patched sends the same calls. -/
theorem cycle_reads_presence_patched :
    (⟨mirroredStore true, []⟩ : World).store.has = (⟨patchedStore, []⟩ : World).store.has ∧
      ∃ cs, cycle mirrorPolicy (valueSnapshot (.str "7")) host2000 0 ⟨mirroredStore true, []⟩ =
          sendAll cs ⟨mirroredStore true, []⟩ ∧
        cycle mirrorPolicy (valueSnapshot (.str "7")) host2000 0 ⟨patchedStore, []⟩ =
          sendAll cs ⟨patchedStore, []⟩ ∧
        (cycle mirrorPolicy (valueSnapshot (.str "7")) host2000 0 ⟨mirroredStore true, []⟩).store.has =
          (cycle mirrorPolicy (valueSnapshot (.str "7")) host2000 0 ⟨patchedStore, []⟩).store.has ∧
        ∀ k p, (cycle mirrorPolicy (valueSnapshot (.str "7")) host2000 0
              ⟨mirroredStore true, []⟩).store.value k p =
            (cycle mirrorPolicy (valueSnapshot (.str "7")) host2000 0 ⟨patchedStore, []⟩).store.value k p ∨
          ((cycle mirrorPolicy (valueSnapshot (.str "7")) host2000 0
              ⟨mirroredStore true, []⟩).store.value k p = (mirroredStore true).value k p ∧
            (cycle mirrorPolicy (valueSnapshot (.str "7")) host2000 0 ⟨patchedStore, []⟩).store.value k p =
              patchedStore.value k p) :=
  have h : (mirroredStore true).has = patchedStore.has := (Store.apply_update_has _ _ _ _).symm
  ⟨h, cycle_reads_presence mirrorPolicy (valueSnapshot (.str "7")) host2000 0 h⟩

end Cycle

/-! ## Rounds of the exporter between other clients' patches -/

/-- What happens to BaSyx, one thing after the other: a round of the `while True` loop of
`exporter.py`, with the policy that `load_config` returns, what the sources answer and the clock;
or another client's `PATCH` of the `$value` of element `p` of the submodel at token `k`. -/
inductive Event where
  | round (config : Config) (snap : Snapshot) (now : Nat)
  | patch (k p body : String)

/-- The world after an event. The log holds the exporter's calls only. -/
def Event.run (host : Host) : Event → World → World
  | .round config snap now, w => cycle config snap host now w
  | .patch k p body, w => ⟨(w.store.apply (.updateElement k p body)).2, w.log⟩

/-- Whether an event is a round of the exporter. -/
def Event.isRound : Event → Bool
  | .round .. => true
  | .patch .. => false

/-- The world after the events, in order. -/
def runEvents (host : Host) (es : List Event) (w : World) : World :=
  es.foldl (fun w e => e.run host w) w

/-- No event leaves the world. -/
@[simp] theorem runEvents_nil (host : Host) (w : World) : runEvents host [] w = w := rfl

/-- The events run the first, then the rest. -/
@[simp] theorem runEvents_cons (host : Host) (e : Event) (es : List Event) (w : World) :
    runEvents host (e :: es) w = runEvents host es (e.run host w) := rfl

/-- Two runs of events, one after the other. -/
theorem runEvents_append (host : Host) (es₁ es₂ : List Event) (w : World) :
    runEvents host (es₁ ++ es₂) w = runEvents host es₂ (runEvents host es₁ w) :=
  List.foldl_append _ _ _ _

/-- Other clients' patches add nothing to the exporter's log. -/
theorem runEvents_log_of_patches (host : Host) : ∀ (es : List Event) (w : World),
    (∀ e ∈ es, e.isRound = false) → (runEvents host es w).log = w.log
  | [], _, _ => rfl
  | .round .. :: _, _, h => absurd (h _ (List.mem_cons_self _ _)) Bool.true_eq_false_eq_False
  | .patch .. :: es, _, h =>
    runEvents_log_of_patches host es _ fun e he => h e (List.mem_cons_of_mem _ he)

/-- Sending calls changes the store as applying them in order does, whatever the log. -/
theorem sendAll_store (cs : List Call) (w : World) :
    (sendAll cs w).store = cs.foldl (fun σ c => (σ.apply c).2) w.store := by
  induction cs generalizing w with
  | nil => rfl
  | cons c cs ih => exact ih _

/-- The events act on the store alone: from two worlds with the same store, they reach the same
store, and the exporter's rounds append the same calls to either log. -/
theorem runEvents_of_store_eq (host : Host) : ∀ (es : List Event) {w₁ w₂ : World},
    w₁.store = w₂.store → ∃ L, (runEvents host es w₁).log = w₁.log ++ L ∧
      (runEvents host es w₂).log = w₂.log ++ L ∧
      (runEvents host es w₁).store = (runEvents host es w₂).store
  | [], _, _, h => ⟨[], by simp, by simp, h⟩
  | .round config snap now :: es, w₁, w₂, h => by
    obtain ⟨cs, e₁, e₂⟩ := cycle_sameCalls config snap host now (congrArg Store.has h)
    obtain ⟨L, h₁, h₂, hs⟩ := runEvents_of_store_eq host es
      (show (sendAll cs w₁).store = (sendAll cs w₂).store by rw [sendAll_store, sendAll_store, h])
    refine ⟨cs ++ L, ?_, ?_, ?_⟩ <;> simp only [runEvents_cons, Event.run, e₁, e₂]
    · rw [h₁, sendAll_log, List.append_assoc]
    · rw [h₂, sendAll_log, List.append_assoc]
    · exact hs
  | .patch k p body :: es, w₁, w₂, h =>
    runEvents_of_store_eq host es (show (w₁.store.apply _).2 = (w₂.store.apply _).2 by rw [h])

/-- Two worlds with the same log and the same places, whose elements in `Q` hold the same
values. -/
structure SameOn (Q : String → String → Prop) (w₁ w₂ : World) : Prop where
  log : w₁.log = w₂.log
  has : w₁.store.has = w₂.store.has
  value : ∀ k p, Q k p → w₁.store.value k p = w₂.store.value k p

section SameOn

variable {Q : String → String → Prop} {w₁ w₂ : World} (host : Host)

/-- A round from both worlds keeps them the same on `Q`. -/
theorem SameOn.round (h : SameOn Q w₁ w₂) (config : Config) (snap : Snapshot) (now : Nat) :
    SameOn Q ((Event.round config snap now).run host w₁) ((Event.round config snap now).run host w₂) := by
  obtain ⟨cs, e₁, e₂⟩ := cycle_sameCalls config snap host now h.has
  obtain ⟨hhas, hv⟩ := sendAll_of_has_eq cs h.has
  simp only [Event.run, e₁, e₂]
  refine ⟨by rw [sendAll_log, sendAll_log, h.log], hhas, fun k p hq => ?_⟩
  rcases hv k p with e | ⟨e₁, e₂⟩
  · exact e
  · rw [e₁, e₂, h.value k p hq]

/-- A patch of an element outside `Q` in the first world keeps the two the same on `Q`. -/
theorem SameOn.patch_left (h : SameOn Q w₁ w₂) {k p body : String} (hq : ¬Q k p) :
    SameOn Q ((Event.patch k p body).run host w₁) w₂ := by
  refine ⟨h.log, (Store.apply_update_has _ _ _ _).trans h.has, fun k' p' hq' => ?_⟩
  have hne : ¬(k = k' ∧ p = p') := fun ⟨e₁, e₂⟩ => hq (e₁ ▸ e₂ ▸ hq')
  rw [Event.run, Store.value_apply_of_written _ (by simp [Call.written, hne]), h.value k' p' hq']

/-- Over a run in which no patch writes an element of `Q`, the run and the run of its rounds
alone stay the same on `Q`. -/
theorem SameOn.runEvents : ∀ (es : List Event) {w₁ w₂ : World},
    (∀ k p body, Event.patch k p body ∈ es → ¬Q k p) → SameOn Q w₁ w₂ →
      SameOn Q (TwinExporter.runEvents host es w₁)
        (TwinExporter.runEvents host (es.filter Event.isRound) w₂)
  | [], _, _, _, h => h
  | .round config snap now :: es, _, _, hp, h =>
    SameOn.runEvents es (fun k p b hb => hp k p b (List.mem_cons_of_mem _ hb))
      (h.round host config snap now)
  | .patch k p body :: es, _, _, hp, h =>
    SameOn.runEvents es (fun k p b hb => hp k p b (List.mem_cons_of_mem _ hb))
      (h.patch_left host (hp k p body (List.mem_cons_self _ _)))

end SameOn

/-- Patches of other clients do not reach the exporter: over any interleaving of rounds of the
`while True` loop of `exporter.py` with `PATCH`es of element values, the exporter sends the calls
that it sends in the rounds alone, the same places are present, and every element that no patch
writes holds the value it holds after the rounds alone. -/
theorem runEvents_patches (host : Host) (es : List Event) (w : World) :
    (runEvents host es w).log = (runEvents host (es.filter Event.isRound) w).log ∧
      (runEvents host es w).store.has = (runEvents host (es.filter Event.isRound) w).store.has ∧
      ∀ k p, (∀ body, Event.patch k p body ∉ es) →
        (runEvents host es w).store.value k p =
          (runEvents host (es.filter Event.isRound) w).store.value k p :=
  have h := SameOn.runEvents host (Q := fun k p => ∀ body, Event.patch k p body ∉ es) es
    (fun _ _ b hb hq => hq b hb) ⟨rfl, rfl, fun _ _ _ => rfl⟩
  ⟨h.log, h.has, h.value⟩

end TwinExporter
