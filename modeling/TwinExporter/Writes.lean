import TwinExporter.Reconcile

/-!
# What a cycle writes

Every call that a cycle sends has a reason in the policy and the snapshot. The cleanup pass sends
only deletes, each `Retired`: a shell of a thing none of whose features is exported, the submodel
of a feature that is not exported, or an element outside the property list of one that is. The
reconciliation pass sends only `Authorized` writes: the shell, the submodel and its reference of
an exported feature, and writes of the selected properties of its bundle, with their values,
when the gate passed. `cycle_log` puts the two together.

The proofs follow the code. `Sends P w w'` says that `w'` is `w` after sending calls that satisfy
`P`, one after the other; a post, a bind and a loop keep it, so each function of `Reconcile.lean`
gets one lemma, by induction where it is a loop. What a piece does to BaSyx then follows from what
its calls do (`Store.apply`).
-/

namespace TwinExporter

/-- `w'` is `w` after sending calls that all satisfy `P`. -/
def Sends (P : Call → Prop) (w w' : World) : Prop :=
  ∃ cs, (∀ c ∈ cs, P c) ∧ w' = sendAll cs w

section Sends

variable {P Q : Call → Prop} {w w₁ w₂ : World}

/-- Staying in place sends no call. -/
theorem Sends.refl : Sends P w w := ⟨[], by simp, rfl⟩

/-- Two runs of sends in turn are one. -/
theorem Sends.trans (h₁ : Sends P w w₁) (h₂ : Sends P w₁ w₂) : Sends P w w₂ := by
  obtain ⟨cs, hc, rfl⟩ := h₁
  obtain ⟨ds, hd, rfl⟩ := h₂
  exact ⟨cs ++ ds, fun c h => (List.mem_append.mp h).elim (hc c) (hd c), (sendAll_append _ _ _).symm⟩

/-- Calls with a property have every weaker one. -/
theorem Sends.mono (h : Sends P w w₁) (hPQ : ∀ c, P c → Q c) : Sends Q w w₁ := by
  obtain ⟨cs, hc, rfl⟩ := h
  exact ⟨cs, fun c h => hPQ c (hc c h), rfl⟩

/-- The log grows by the calls sent. -/
theorem Sends.log (h : Sends P w w₁) : ∃ cs, w₁.log = w.log ++ cs ∧ ∀ c ∈ cs, P c := by
  obtain ⟨cs, hc, rfl⟩ := h
  exact ⟨cs, sendAll_log _ _, hc⟩

/-- A post sends its call, whatever BaSyx answers. -/
theorem sends_post {c : Call} (h : P c) : Sends P w (caught (w.post c)) :=
  ⟨[c], by simpa using h, by unfold World.post; split <;> rfl⟩

/-- A bind sends what its first part sends, then what its second part sends from where the first
returned. -/
theorem sends_bind {x : Except World World} {g : World → Except World World}
    (hx : Sends P w (caught x)) (hg : ∀ w', x = .ok w' → Sends P w' (caught (g w'))) :
    Sends P w (caught (x.bind g)) := by
  cases x with
  | error w' => exact hx
  | ok w' => exact hx.trans (hg w' rfl)

end Sends

/-- A call that deletes. -/
def Call.IsDelete : Call → Prop
  | .deleteShell _ | .deleteSubmodel _ | .deleteElement _ _ => True
  | _ => False

/-- Source rule `s` reports thing `th`. -/
def Snapshot.ReportsThing (snap : Snapshot) (s : SourceRule) (th : Thing) : Prop :=
  ∃ ths, snap.things s.url s.auth = some ths ∧ th ∈ ths

/-- Source rule `s` reports feature `fid` of thing `th`, with data `d`: the features come from
the URL that `f"{thing_id}"` writes. -/
def Snapshot.Reports (snap : Snapshot) (s : SourceRule) (th : Thing) (fid : String)
    (d : Feature) : Prop :=
  snap.ReportsThing s th ∧ ∃ feats, snap.features s.url s.auth (pyFormat th.thingId) = some feats ∧
    (fid, d) ∈ feats.entries

section Reasons

variable (config : Config) (snap : Snapshot) (host : Host) (now : Nat)

/-- A write of property `p` of bundle `d` under property list `sel`: `p` is selected and has value
`v` in the bundle, and when `verify_signatures` is on, the bundle passed the gate. -/
def WritesProperty (d : Feature) (sel : List String) (p : String) (v : JsonValue) : Prop :=
  ("*" ∈ sel ∨ p ∈ sel) ∧ d.bundle.get? p = some v ∧
    (config.verifySignatures = true → verifyFeatureSignature host d config.publicKeyPath = true)

/-- A call that exporting feature `fid` of thing `t`, with data `d` under property list `sel`,
may send: the shell of `t`, the submodel `t:fid` and its reference in the shell, and a create
(`str(v)`) or an update (`f'"{v}"'`) of a written property. -/
def ExportCall (t fid : String) (d : Feature) (sel : List String) : Call → Prop
  | .createShell t' => t' = t
  | .createSubmodel id => id = submodelId t fid
  | .postSubmodelRef k id => k = encodeId t ∧ id = submodelId t fid
  | .createElement k p value =>
    k = encodeId (submodelId t fid) ∧
      ∃ v, WritesProperty config host d sel p v ∧ value = host.str v
  | .updateElement k p body =>
    k = encodeId (submodelId t fid) ∧
      ∃ v, WritesProperty config host d sel p v ∧ body = "\"" ++ host.str v ++ "\""
  | _ => False

/-- A call that the reconciliation of source rule `s` may send: one of `ExportCall` for a
feature that `s` reports of a thing with id `t`, when the resolver exports it. -/
def AuthorizedBy (s : SourceRule) (c : Call) : Prop :=
  ∃ th t fid d sel, snap.Reports s th fid d ∧ th.thingId = some t ∧
    resolve config host now s.url (some t) fid = .found sel ∧ ExportCall config host t fid d sel c

/-- A call that the reconciliation pass may send: one authorized by a source rule of the
policy. -/
def Authorized (c : Call) : Prop :=
  ∃ s ∈ config.sourceRules, AuthorizedBy config snap host now s c

/-- A delete that the cleanup pass may send, for a thing with a non-empty id reported by a
source rule of the policy: its shell when none of its features is exported, the submodel of a
feature that is not exported, or an element of an exported feature's bundle outside its list. -/
def Retired : Call → Prop
  | .deleteShell k =>
    ∃ s ∈ config.sourceRules, ∃ th t feats, snap.ReportsThing s th ∧ th.thingId = some t ∧
      t ≠ "" ∧ snap.features s.url s.auth t = some feats ∧ k = encodeId t ∧
      ∀ e ∈ feats.entries, resolve config host now s.url (some t) e.1 = .unconfigured
  | .deleteSubmodel k =>
    ∃ s ∈ config.sourceRules, ∃ th t fid d, snap.Reports s th fid d ∧ th.thingId = some t ∧
      t ≠ "" ∧ k = encodeId (submodelId t fid) ∧
      resolve config host now s.url (some t) fid = .unconfigured
  | .deleteElement k p =>
    ∃ s ∈ config.sourceRules, ∃ th t fid d sel, snap.Reports s th fid d ∧ th.thingId = some t ∧
      t ≠ "" ∧ k = encodeId (submodelId t fid) ∧
      resolve config host now s.url (some t) fid = .found sel ∧ "*" ∉ sel ∧ p ∉ sel ∧
      p ∈ d.bundle.keys
  | _ => False

end Reasons

/-! ## The reconciliation pass sends authorized writes -/

section Reconcile

variable {config : Config} {snap : Snapshot} {host : Host} {now : Nat}

/-- `update_basyx_element` on a written property sends a create or an update of it. -/
theorem sends_updateBasyxElement {t fid : String} {d : Feature} {sel : List String} {p : String}
    {v : JsonValue} (hv : WritesProperty config host d sel p v) (w : World) :
    Sends (ExportCall config host t fid d sel) w
      (caught (updateBasyxElement host (submodelId t fid) p v w)) := by
  unfold updateBasyxElement
  split
  · exact sends_post ⟨rfl, v, hv, rfl⟩
  · exact sends_post ⟨rfl, v, hv, rfl⟩

/-- The upsert loop over filtered properties, when the gate passed, writes them. -/
theorem sends_upsertElements {t fid : String} {d : Feature} {sel : List String}
    (hgate : config.verifySignatures = true →
      verifyFeatureSignature host d config.publicKeyPath = true) :
    ∀ (props : List (String × JsonValue)) (w : World),
      (∀ e ∈ props, e ∈ filterProperties sel d.bundle) →
      Sends (ExportCall config host t fid d sel) w
        (caught (upsertElements host (submodelId t fid) props w))
  | [], _, _ => Sends.refl
  | (p, v) :: props, w, h => by
    have hpv := mem_filterProperties.mp (h _ (List.mem_cons_self _ _))
    exact sends_bind (sends_updateBasyxElement ⟨hpv.1, Dict.get?_of_mem hpv.2, hgate⟩ w)
      fun w' _ => sends_upsertElements hgate props w' fun e he => h e (List.mem_cons_of_mem _ he)

/-- An exported feature of a thing with an id sends the shell, the submodel with its reference,
and, past the gate, writes of its filtered properties. -/
theorem sends_exportFeature (t : String) (hasExports : Bool) (fid : String) (d : Feature)
    (sel : List String) (w : World) :
    Sends (ExportCall config host t fid d sel) w
      (caught (exportFeature config host (some t) hasExports fid d sel w)) := by
  unfold exportFeature
  refine sends_bind (sends_bind ?_ fun w₁ _ => ?_) fun w₂ _ => ?_
  · cases hasExports
    · simp only [Bool.false_eq_true, ↓reduceIte, ensureShell]
      split
      · exact Sends.refl
      · exact sends_post rfl
    · exact Sends.refl
  · simp only [ensureSubmodel, createBasyxSubmodel]
    split
    · exact Sends.refl
    · exact sends_bind (sends_post rfl) fun w₃ _ => sends_post ⟨rfl, rfl⟩
  · split
    · exact Sends.refl
    · rename_i hg
      exact sends_upsertElements (fun hv => by simpa [hv] using hg) _ w₂ fun e he => he

/-- The feature loop of a thing without an id sends nothing: it returns at its end, or raises at
the first feature that the resolver answers for, since `encode_id(None)` raises before any
call. -/
theorem reconcileFeatures_none_eq (url : String) : ∀ (feats : List (String × Feature)) (w : World),
    reconcileFeatures config host now url none false feats w =
      if feats.any (fun e => resolve config host now url none e.1 != .unconfigured) then .error w
      else .ok w
  | [], _ => rfl
  | (fid, d) :: feats, w => by
    cases h : resolve config host now url none fid <;>
      simp only [reconcileFeatures, reconcileFeature, List.any_cons, h]
    case found sel => simp [exportFeature, ensureShell, Except.bind]
    case unconfigured =>
      simpa [Resolution.isFound, Except.bind] using reconcileFeatures_none_eq url feats w
    case raised => rfl

/-- The feature loop of a thing without an id leaves the world as it was. -/
theorem reconcileFeatures_none (url : String) (feats : List (String × Feature)) (w : World) :
    caught (reconcileFeatures config host now url none false feats w) = w := by
  rw [reconcileFeatures_none_eq]
  split <;> rfl

/-- The feature loop of a thing with an id sends what its reported, exported features
authorize. -/
theorem sends_reconcileFeatures {s : SourceRule} {th : Thing} {t : String} (ht : th.thingId = some t) :
    ∀ (hasExports : Bool) (feats : List (String × Feature)) (w : World),
      (∀ e ∈ feats, snap.Reports s th e.1 e.2) →
      Sends (AuthorizedBy config snap host now s) w
        (caught (reconcileFeatures config host now s.url (some t) hasExports feats w))
  | _, [], _, _ => Sends.refl
  | h, (fid, d) :: feats, w, hr => by
    refine sends_bind ?_ fun w' _ =>
      sends_reconcileFeatures ht _ feats w' fun e he => hr e (List.mem_cons_of_mem _ he)
    unfold reconcileFeature
    split
    · exact Sends.refl
    · exact Sends.refl
    · rename_i sel hsel
      exact (sends_exportFeature t h fid d sel w).mono fun c hc =>
        ⟨th, t, fid, d, sel, hr _ (List.mem_cons_self _ _), ht, hsel, hc⟩

/-- A reported thing sends what its features authorize. -/
theorem sends_reconcileThing {s : SourceRule} {th : Thing} (hth : snap.ReportsThing s th)
    (w : World) :
    Sends (AuthorizedBy config snap host now s) w (caught (reconcileThing config snap host now s th w)) := by
  unfold reconcileThing
  split
  · exact Sends.refl
  · rename_i feats hfeats
    cases ht : th.thingId with
    | none => rw [reconcileFeatures_none]; exact Sends.refl
    | some t =>
      exact sends_reconcileFeatures ht false _ w fun e he => ⟨hth, feats, hfeats, he⟩

/-- The thing loop of a source rule sends what its reported things authorize. -/
theorem sends_reconcileThings {s : SourceRule} :
    ∀ (ths : List Thing) (w : World), (∀ th ∈ ths, snap.ReportsThing s th) →
      Sends (AuthorizedBy config snap host now s) w (caught (reconcileThings config snap host now s ths w))
  | [], _, _ => Sends.refl
  | th :: ths, w, h =>
    sends_bind (sends_reconcileThing (h th (List.mem_cons_self _ _)) w) fun w' _ =>
      sends_reconcileThings ths w' fun th' h' => h th' (List.mem_cons_of_mem _ h')

/-- One source rule sends what it authorizes. -/
theorem sends_reconcileSource (s : SourceRule) (w : World) :
    Sends (AuthorizedBy config snap host now s) w (reconcileSource config snap host now s w) := by
  unfold reconcileSource
  split
  · exact Sends.refl
  · rename_i ths hths
    exact sends_reconcileThings ths w fun th h => ⟨ths, hths, h⟩

/-- The reconciliation pass sends only authorized writes. -/
theorem sends_reconcile (w : World) :
    Sends (Authorized config snap host now) w (reconcile config snap host now w) := by
  unfold reconcile
  split
  · exact Sends.refl
  · suffices ∀ ss : List SourceRule, (∀ s ∈ ss, s ∈ config.sourceRules) → ∀ w,
        Sends (Authorized config snap host now) w
          (ss.foldl (fun w s => reconcileSource config snap host now s w) w) from
      this _ (fun _ h => h) w
    intro ss
    induction ss with
    | nil => exact fun _ _ => Sends.refl
    | cons s ss ih =>
      intro hs w
      exact ((sends_reconcileSource s w).mono fun c hc => ⟨s, hs s (List.mem_cons_self _ _), hc⟩).trans
        (ih (fun s' h => hs s' (List.mem_cons_of_mem _ h)) _)

end Reconcile

/-! ## The cleanup pass sends retired deletes -/

section Cleanup

variable {config : Config} {snap : Snapshot} {host : Host} {now : Nat}

/-- A call of two queues is a call of one of them. -/
theorem mem_calls_append {a b : Removals} {c : Call} :
    c ∈ (a ++ b).calls ↔ c ∈ a.calls ∨ c ∈ b.calls := by
  rw [(Removals.calls_append_perm a b).mem_iff, List.mem_append]

/-- When the first loop finds no exported feature, none is exported. -/
theorem unconfigured_of_thingHasExports {url t : String} :
    ∀ {feats : List (String × Feature)}, thingHasExports config host now url t feats = some false →
      ∀ e ∈ feats, resolve config host now url (some t) e.1 = .unconfigured
  | [], _ => by simp
  | (fid, d) :: feats, h => by
    simp only [thingHasExports] at h
    split at h
    · cases h
    · cases h
    · rename_i hr
      intro e he
      rcases List.mem_cons.mp he with rfl | he
      · exact hr
      · exact unconfigured_of_thingHasExports h e he

/-- Every call that the second loop queues is a submodel of a feature that is not exported, or an
element outside the list of one that is. -/
theorem featureRemovals_calls_of {url t : String} {P : Call → Prop} :
    ∀ (feats : List (String × Feature)) (q : Removals),
      (∀ e ∈ feats, resolve config host now url (some t) e.1 = .unconfigured →
        P (.deleteSubmodel (encodeId (submodelId t e.1)))) →
      (∀ e ∈ feats, ∀ sel, resolve config host now url (some t) e.1 = .found sel → "*" ∉ sel →
        ∀ p ∈ e.2.bundle.keys, p ∉ sel → P (.deleteElement (encodeId (submodelId t e.1)) p)) →
      featureRemovals config host now url t feats = some q → ∀ c ∈ q.calls, P c
  | [], _, _, _, h => by cases h; simp [Removals.calls]
  | (fid, d) :: feats, q, hs, he, h => by
    have ih := fun q' => featureRemovals_calls_of feats q'
      (fun e h' => hs e (List.mem_cons_of_mem _ h')) (fun e h' => he e (List.mem_cons_of_mem _ h'))
    simp only [featureRemovals] at h
    split at h
    · cases h
    · rename_i hr
      obtain ⟨q', hq', rfl⟩ := Option.map_eq_some'.mp h
      intro c hc
      rcases mem_calls_append.mp hc with hc | hc
      · simp only [Removals.calls, List.map_cons, List.map_nil, List.append_nil, List.mem_singleton,
          Item.call] at hc
        exact hc ▸ hs _ (List.mem_cons_self _ _) hr
      · exact ih _ hq' c hc
    · rename_i sel hr
      obtain ⟨q', hq', rfl⟩ := Option.map_eq_some'.mp h
      intro c hc
      rcases mem_calls_append.mp hc with hc | hc
      · simp only [Removals.calls, elementsOut, List.map_nil, List.nil_append] at hc
        split at hc
        · simp at hc
        · rename_i hstar
          obtain ⟨_, hp, rfl⟩ := List.mem_map.mp hc
          obtain ⟨p, hpf, rfl⟩ := List.mem_map.mp hp
          rw [List.mem_filter, decide_eq_true_eq] at hpf
          exact he _ (List.mem_cons_self _ _) sel hr hstar p hpf.1 hpf.2
      · exact ih _ hq' c hc

/-- Every call that one thing queues is retired. -/
theorem thingRemovals_retired {s : SourceRule} {th : Thing} {q : Removals}
    (hs : s ∈ config.sourceRules) (hth : snap.ReportsThing s th)
    (h : thingRemovals config snap host now s th = some q) :
    ∀ c ∈ q.calls, Retired config snap host now c := by
  unfold thingRemovals at h
  split at h
  · cases h; simp [Removals.calls]
  · rename_i t ht
    split at h
    · cases h; simp [Removals.calls]
    · rename_i hne
      split at h
      · cases h
      · rename_i feats hfeats
        have hrep : ∀ e ∈ feats.entries, snap.Reports s th e.1 e.2 := fun e he =>
          ⟨hth, feats, by simpa [ht, pyFormat] using hfeats, he⟩
        split at h
        · cases h
        · rename_i hno
          cases h
          have hu := unconfigured_of_thingHasExports hno
          intro c hc
          simp only [Removals.calls, List.map_cons, List.map_nil, List.append_nil,
            List.mem_cons, List.map_map] at hc
          rcases hc with rfl | hc
          · exact ⟨s, hs, th, t, feats, hth, ht, hne, hfeats, rfl, hu⟩
          · obtain ⟨fid, hfid, rfl⟩ := List.mem_map.mp hc
            obtain ⟨e, he, rfl⟩ := List.mem_map.mp hfid
            exact ⟨s, hs, th, t, e.1, e.2, hrep e he, ht, hne, rfl, hu e he⟩
        · exact featureRemovals_calls_of _ _
            (fun e he hu => ⟨s, hs, th, t, e.1, e.2, hrep e he, ht, hne, rfl, hu⟩)
            (fun e he sel hsel hstar p hp hps =>
              ⟨s, hs, th, t, e.1, e.2, sel, hrep e he, ht, hne, rfl, hsel, hstar, hps, hp⟩) h

/-- Every call that the things of a source rule queue is retired. -/
theorem thingsRemovals_retired {s : SourceRule} (hs : s ∈ config.sourceRules) :
    ∀ {ths : List Thing} {q : Removals}, (∀ th ∈ ths, snap.ReportsThing s th) →
      thingsRemovals config snap host now s ths = some q → ∀ c ∈ q.calls, Retired config snap host now c
  | [], _, _, h => by cases h; simp [Removals.calls]
  | th :: ths, q, hr, h => by
    simp only [thingsRemovals, Option.bind_eq_bind, Option.bind_eq_some, Option.pure_def,
      Option.some.injEq] at h
    obtain ⟨a, ha, b, hb, rfl⟩ := h
    intro c hc
    rcases mem_calls_append.mp hc with hc | hc
    · exact thingRemovals_retired hs (hr th (List.mem_cons_self _ _)) ha c hc
    · exact thingsRemovals_retired hs (fun th' h' => hr th' (List.mem_cons_of_mem _ h')) hb c hc

/-- Every call that the cleanup pass sends is retired. -/
theorem cleanupCalls_retired : ∀ c ∈ cleanupCalls config snap host now, Retired config snap host now c := by
  suffices ∀ (ss : List SourceRule) (q : Removals), (∀ s ∈ ss, s ∈ config.sourceRules) →
      sourcesRemovals config snap host now ss = some q → ∀ c ∈ q.calls, Retired config snap host now c by
    unfold cleanupCalls removals
    split
    · cases hq : sourcesRemovals config snap host now config.sourceRules with
      | none => simp
      | some q => simpa using this _ q (fun _ h => h) hq
    · simp
  intro ss
  induction ss with
  | nil => intro q _ h; cases h; simp [Removals.calls]
  | cons s ss ih =>
    intro q hs h
    simp only [sourcesRemovals, Option.bind_eq_bind, Option.bind_eq_some, Option.pure_def,
      Option.some.injEq] at h
    obtain ⟨ths, hths, a, ha, b, hb, rfl⟩ := h
    intro c hc
    rcases mem_calls_append.mp hc with hc | hc
    · exact thingsRemovals_retired (hs s (List.mem_cons_self _ _)) (fun th h => ⟨ths, hths, h⟩) ha c hc
    · exact ih b (fun s' h' => hs s' (List.mem_cons_of_mem _ h')) hb c hc

/-- The cleanup pass sends retired deletes. -/
theorem sends_cleanup (w : World) :
    Sends (Retired config snap host now) w (cleanupBasyxResources config snap host now w) :=
  ⟨_, cleanupCalls_retired, cleanup_eq_sendAll _ _ _ _ _⟩

end Cleanup

/-- A cycle logs the retired deletes of its cleanup pass, then the authorized writes of its
reconciliation pass: only a feature that the policy exports and a source reports gets a shell, a
submodel or a reference, and only a selected property of its bundle, with its value, and past the
gate when `verify_signatures` is on, is created or updated. -/
theorem cycle_log (config : Config) (snap : Snapshot) (host : Host) (now : Nat) (w : World) :
    ∃ ds cs, (cycle config snap host now w).log = w.log ++ ds ++ cs ∧
      (∀ c ∈ ds, Retired config snap host now c) ∧ ∀ c ∈ cs, Authorized config snap host now c := by
  obtain ⟨ds, hds, hd⟩ := (@sends_cleanup config snap host now w).log
  obtain ⟨cs, hcs, hc⟩ :=
    (@sends_reconcile config snap host now (cleanupBasyxResources config snap host now w)).log
  exact ⟨ds, cs, by rw [cycle, hcs, hds], hd, hc⟩

end TwinExporter
