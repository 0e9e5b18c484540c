import TwinExporter.Effects

/-!
# No cross-talk between features

The submodel of feature `f` of thing `t` sits at the token of `t:f`. A cycle writes it from the
feature loops of the things that the source lists, and its cleanup pass deletes it, or elements of
it, for the features whose id joins to `t:f`. When no other thing reports a feature under `t:f`
(`Snapshot.Isolates`), both passes read the snapshot there through two things only: the data of
`f` at `t`, and how many times the source lists `t`. The cleanup pass does what `cleanSlot` says
with the first (`cleanup_slot`); the thing loop runs `featureSlot` once per listing of `t`
(`thingsSlot_isolated`). `cycle_slot` puts the two together, and two snapshots that agree on those
two leave the submodel the same (`cycle_isolates_submodel`).

Without isolation they do not: the ids `a` and `b:c` join to the same `a:b:c` as `a:b` and `c`, so
a snapshot that adds thing `a:b` with feature `c` writes into the submodel of feature `b:c` of `a`
(`cycle_submodel_collides`). The number of listings matters too: a thing listed twice runs its
feature loop twice, and the second upsert of a property stores the quoted text of `Mirror.lean`.
-/

namespace TwinExporter

/-- Given the thing id, a submodel id determines the feature id. -/
theorem submodelId_right_inj {t a b : String} (h : submodelId t a = submodelId t b) : a = b := by
  have := congrArg String.data h
  simp only [submodelId, String.data_append, List.append_cancel_left_eq] at this
  exact String.ext this

/-- No thing other than `t` has a feature that source rule `s` reports under the submodel id
`t:f`. -/
def Snapshot.Isolates (snap : Snapshot) (s : SourceRule) (t f : String) : Prop :=
  ∀ th t' f' d, snap.Reports s th f' d → th.thingId = some t' → submodelId t' f' = submodelId t f →
    t' = t

/-- Feature `f` of thing `t` as source rule `s` reports it: its data, when `s` lists `t` and `t`
has `f`. -/
def Snapshot.feature? (snap : Snapshot) (s : SourceRule) (t f : String) : Option Feature :=
  if ((snap.things s.url s.auth).getD []).any (·.thingId == some t) then
    (snap.features s.url s.auth t).bind (·.get? f)
  else none

/-- A thing of a source rule's listing is reported by that rule. -/
theorem reportsThing_of_mem {snap : Snapshot} {s : SourceRule} {th : Thing}
    (h : th ∈ (snap.things s.url s.auth).getD []) : snap.ReportsThing s th := by
  cases hT : snap.things s.url s.auth with
  | none => simp [hT] at h
  | some ths => exact ⟨ths, hT, by simpa [hT] using h⟩

/-- The data of a listed thing's feature is what `feature?` returns. -/
theorem feature?_eq_some_iff {snap : Snapshot} {s : SourceRule} {t f : String} {d : Feature} :
    snap.feature? s t f = some d ↔ (∃ th ∈ (snap.things s.url s.auth).getD [], th.thingId = some t) ∧
      ∃ feats, snap.features s.url s.auth t = some feats ∧ (f, d) ∈ feats.entries := by
  simp only [Snapshot.feature?, List.any_eq_true, beq_iff_eq]
  split_ifs with h
  · simp [Option.bind_eq_some, Dict.get?_eq_some_iff, h]
  · simp only [reduceCtorEq, false_iff, not_and]
    exact fun h' => absurd h' h

section Slot

variable (config : Config) (host : Host) (now : Nat)

/-! ## The reconciliation pass at one submodel -/

/-- What one run of the feature loop of thing `t`, whose feature `f` has data `d?`, does to the
submodel `t:f`: exported, `f` makes it what `exportSubmodel` gives. -/
def featureSlot (url t f : String) (d? : Option Feature) (o : Option Submodel) : Option Submodel :=
  match d?, resolve config host now url (some t) f with
  | some d, .found sel => some (exportSubmodel config host d sel o)
  | _, _ => o

/-- A feature loop whose features all have other submodel ids leaves the submodel at `k` as it
is. -/
theorem featuresSlot_of_ne (url t k : String) :
    ∀ (es : List (String × Feature)) (o : Option Submodel),
      (∀ e ∈ es, k ≠ encodeId (submodelId t e.1)) → featuresSlot config host now url t k es o = o
  | [], _, _ => rfl
  | (fid, d) :: es, o, h => by
    have hk := h (fid, d) (List.mem_cons_self _ _)
    simp only [featuresSlot]
    rw [featuresSlot_of_ne url t k es _ fun e he => h e (List.mem_cons_of_mem _ he)]
    cases resolve config host now url (some t) fid <;> simp [hk]

/-- The feature loop of thing `t`, over a dictionary's entries, does to the submodel `t:f` what the
entry of `f` does. -/
theorem featuresSlot_eq_lookup (url t f : String) :
    ∀ (es : List (String × Feature)) (o : Option Submodel), (es.map Prod.fst).Nodup →
      featuresSlot config host now url t (encodeId (submodelId t f)) es o =
        featureSlot config host now url t f (es.lookup f) o
  | [], _, _ => rfl
  | (fid, d) :: es, o, hnd => by
    rw [List.map_cons, List.nodup_cons] at hnd
    simp only [featuresSlot]
    by_cases hf : fid = f
    · subst hf
      have hne : ∀ e ∈ es, encodeId (submodelId t fid) ≠ encodeId (submodelId t e.1) :=
        fun e he hk => hnd.1 (List.mem_map.mpr ⟨e, he, (submodelId_right_inj (encodeId_injective hk)).symm⟩)
      rw [featuresSlot_of_ne config host now url t _ es _ hne]
      cases hr : resolve config host now url (some t) fid <;> simp [featureSlot, List.lookup_cons, hr]
    · have hk : encodeId (submodelId t f) ≠ encodeId (submodelId t fid) :=
        fun hk => hf (submodelId_right_inj (encodeId_injective hk)).symm
      have hb : (f == fid) = false := by simpa using Ne.symm hf
      rw [featuresSlot_eq_lookup url t f es _ hnd.2]
      cases resolve config host now url (some t) fid <;> simp [List.lookup_cons, hk, hb]

variable (snap : Snapshot)

/-- When no other thing has a feature under `t:f`, the thing loop of a source rule runs
`featureSlot` on the submodel `t:f` once for each listing of `t`. -/
theorem thingsSlot_isolated (s : SourceRule) (t f : String) :
    ∀ (ths : List Thing) (o : Option Submodel),
      (∀ th ∈ ths, ∀ t' feats, th.thingId = some t' → snap.features s.url s.auth t' = some feats →
        ∀ e ∈ feats.entries, submodelId t' e.1 = submodelId t f → t' = t) →
      thingsSlot config host now snap s (encodeId (submodelId t f)) ths o =
        (featureSlot config host now s.url t f ((snap.features s.url s.auth t).bind (·.get? f)))^[
          ths.countP (·.thingId == some t)] o
  | [], _, _ => rfl
  | th :: ths, o, h => by
    have hth := h th (List.mem_cons_self _ _)
    simp only [thingsSlot]
    rw [thingsSlot_isolated s t f ths _ fun th' h' => h th' (List.mem_cons_of_mem _ h')]
    cases hid : th.thingId with
    | none => simp [hid]
    | some t' =>
      simp only [pyFormat_some]
      by_cases ht : t' = t
      · subst ht
        rw [List.countP_cons_of_pos _ _ (by simp [hid]), Function.iterate_succ_apply]
        congr 1
        cases hF : snap.features s.url s.auth t' with
        | none => rfl
        | some feats =>
          exact featuresSlot_eq_lookup _ _ _ _ _ _ _ _ feats.nodup
      · rw [List.countP_cons_of_neg _ _ (by simp [hid, ht])]
        congr 1
        cases hF : snap.features s.url s.auth t' with
        | none => rfl
        | some feats =>
          exact featuresSlot_of_ne _ _ _ _ _ _ _ _ fun e he hk =>
            ht (hth t' feats hid hF e he (encodeId_injective hk).symm)

/-! ## The cleanup pass at one submodel -/

/-- What the deletes of §4.5 do to the submodel `t:f` when feature `f` of `t` has data `d?`:
nothing for an empty id; the submodel goes when `f` is reported and not exported; the properties
outside the list go when it is exported with a list without `"*"`. -/
def cleanSlot (url t f : String) (d? : Option Feature) (o : Option Submodel) : Option Submodel :=
  if t = "" then o
  else
    match d?, resolve config host now url (some t) f with
    | some _, .unconfigured => none
    | some d, .found sel =>
      if "*" ∈ sel then o
      else o.map fun sm => ⟨fun p => if p ∈ d.bundle.keys ∧ p ∉ sel then none else sm.elements p⟩
    | _, _ => o

end Slot

section Deletes

variable {config : Config} {snap : Snapshot} {host : Host} {now : Nat} {s : SourceRule}
  {t f : String}

/-- The submodel deletes of §4.5 are those of the features that are not exported. -/
theorem mem_submodelDeletes {t : String} {F : List (String × Feature)} {c : Call} :
    c ∈ submodelDeletes config host now s t F ↔ ∃ e ∈ F,
      resolve config host now s.url (some t) e.1 = .unconfigured ∧
        .deleteSubmodel (encodeId (submodelId t e.1)) = c := by
  simp only [submodelDeletes, List.mem_map, List.mem_filter, decide_eq_true_eq, and_assoc]

/-- The element deletes of §4.5 are those of the properties outside the list of an exported
feature whose list has no `"*"`. -/
theorem mem_elementDeletes {t : String} {F : List (String × Feature)} {c : Call} :
    c ∈ elementDeletes config host now s t F ↔ ∃ e ∈ F, ∃ sel,
      resolve config host now s.url (some t) e.1 = .found sel ∧ "*" ∉ sel ∧
        ∃ p ∈ e.2.bundle.keys, p ∉ sel ∧ .deleteElement (encodeId (submodelId t e.1)) p = c := by
  simp only [elementDeletes, List.mem_flatMap]
  refine exists_congr fun e => and_congr_right fun _ => ?_
  cases resolve config host now s.url (some t) e.1 with
  | found sel => by_cases h : "*" ∈ sel <;> simp [h, List.mem_filter, and_assoc]
  | _ => simp

/-- A delete of the submodel `t:f`, among the deletes of an isolated feature, comes from `f` at
`t`. -/
theorem deleteSubmodel_mem_expectedDeletes (hsrc : config.sourceRules = [s])
    (hiso : snap.Isolates s t f) :
    .deleteSubmodel (encodeId (submodelId t f)) ∈ expectedDeletes config snap host now ↔
      t ≠ "" ∧ (snap.feature? s t f).isSome ∧
        resolve config host now s.url (some t) f = .unconfigured := by
  simp only [expectedDeletes, hsrc, List.flatMap_cons, List.flatMap_nil, List.append_nil,
    List.mem_flatMap, thingDeletes, Option.isSome_iff_exists, feature?_eq_some_iff]
  constructor
  · rintro ⟨th, hth, hc⟩
    cases hid : th.thingId with
    | none => simp [hid] at hc
    | some t' =>
      simp only [hid] at hc
      split_ifs at hc with hne
      · simp at hc
      obtain ⟨feats, hF⟩ : ∃ feats, snap.features s.url s.auth t' = some feats := by
        cases hF : snap.features s.url s.auth t' with
        | none => simp [hF, expectedThingDeletes, submodelDeletes, elementDeletes] at hc
        | some feats => exact ⟨feats, rfl⟩
      simp only [expectedThingDeletes, hF, Option.map_some', Option.getD_some, List.mem_append,
        mem_submodelDeletes, mem_elementDeletes] at hc
      rcases hc with (hc | ⟨e, he, hr, hk⟩) | ⟨e, -, sel, -, -, p, -, -, hk⟩
      · split_ifs at hc <;> simp at hc
      · have hk' := encodeId_injective (Call.deleteSubmodel.inj hk)
        obtain rfl := hiso th t' e.1 e.2 ⟨reportsThing_of_mem hth, feats, by simpa [hid] using hF, he⟩
          hid hk'
        obtain rfl := submodelId_right_inj hk'
        exact ⟨hne, ⟨e.2, ⟨th, hth, hid⟩, feats, hF, he⟩, hr⟩
      · cases hk
  · rintro ⟨hne, ⟨d, ⟨th, hth, hid⟩, feats, hF, he⟩, hr⟩
    refine ⟨th, hth, ?_⟩
    simp only [hid, if_neg hne, hF, Option.map_some', Option.getD_some, expectedThingDeletes,
      List.mem_append, mem_submodelDeletes]
    exact .inl (.inr ⟨(f, d), he, hr, rfl⟩)

/-- A delete of an element of the submodel `t:f`, among the deletes of an isolated feature,
comes from `f` at `t`. -/
theorem deleteElement_mem_expectedDeletes (hsrc : config.sourceRules = [s])
    (hiso : snap.Isolates s t f) (p : String) :
    .deleteElement (encodeId (submodelId t f)) p ∈ expectedDeletes config snap host now ↔
      t ≠ "" ∧ ∃ d sel, snap.feature? s t f = some d ∧
        resolve config host now s.url (some t) f = .found sel ∧ "*" ∉ sel ∧ p ∈ d.bundle.keys ∧
          p ∉ sel := by
  simp only [expectedDeletes, hsrc, List.flatMap_cons, List.flatMap_nil, List.append_nil,
    List.mem_flatMap, thingDeletes, feature?_eq_some_iff]
  constructor
  · rintro ⟨th, hth, hc⟩
    cases hid : th.thingId with
    | none => simp [hid] at hc
    | some t' =>
      simp only [hid] at hc
      split_ifs at hc with hne
      · simp at hc
      obtain ⟨feats, hF⟩ : ∃ feats, snap.features s.url s.auth t' = some feats := by
        cases hF : snap.features s.url s.auth t' with
        | none => simp [hF, expectedThingDeletes, submodelDeletes, elementDeletes] at hc
        | some feats => exact ⟨feats, rfl⟩
      simp only [expectedThingDeletes, hF, Option.map_some', Option.getD_some, List.mem_append,
        mem_submodelDeletes, mem_elementDeletes] at hc
      rcases hc with (hc | ⟨e, -, -, hk⟩) | ⟨e, he, sel, hr, hstar, q, hq, hqs, hk⟩
      · split_ifs at hc <;> simp at hc
      · cases hk
      · obtain ⟨hk', rfl⟩ := Call.deleteElement.inj hk
        have hk'' := encodeId_injective hk'
        obtain rfl := hiso th t' e.1 e.2 ⟨reportsThing_of_mem hth, feats, by simpa [hid] using hF, he⟩
          hid hk''
        obtain rfl := submodelId_right_inj hk''
        exact ⟨hne, e.2, sel, ⟨⟨th, hth, hid⟩, feats, hF, he⟩, hr, hstar, hq, hqs⟩
  · rintro ⟨hne, d, sel, ⟨⟨th, hth, hid⟩, feats, hF, he⟩, hr, hstar, hq, hqs⟩
    refine ⟨th, hth, ?_⟩
    simp only [hid, if_neg hne, hF, Option.map_some', Option.getD_some, expectedThingDeletes,
      List.mem_append, mem_elementDeletes]
    exact .inr ⟨(f, d), he, sel, hr, hstar, p, hq, hqs, rfl⟩

/-- On a well-timed policy with one source rule, when every fetch succeeds, the cleanup pass does
to the submodel of an isolated feature what `cleanSlot` says. -/
theorem cleanup_slot (hsrc : config.sourceRules = [s]) (hc : config.WellTimed host.fromisoformat)
    (hs : snap.Serves config) (hiso : snap.Isolates s t f) (w : World) :
    (cleanupBasyxResources config snap host now w).store.submodels (encodeId (submodelId t f)) =
      if config.basyxConfigured then
        cleanSlot config host now s.url t f (snap.feature? s t f) (w.store.submodels (encodeId (submodelId t f)))
      else w.store.submodels (encodeId (submodelId t f)) := by
  rw [cleanup_store, cleanupCalls]
  split_ifs with hb
  · obtain ⟨q, hq, hp⟩ := removals_perm now hc hs
    rw [hq, Option.map_some', Option.getD_some, Store.retire_congr _ fun c => hp.mem_iff]
    -- the element deletes are characterised by a proposition with no decision procedure
    classical
    simp only [Store.retire, deleteSubmodel_mem_expectedDeletes hsrc hiso,
      deleteElement_mem_expectedDeletes hsrc hiso, cleanSlot]
    by_cases ht : t = ""
    · cases w.store.submodels (encodeId (submodelId t f)) <;> simp [ht]
    · cases snap.feature? s t f <;> cases resolve config host now s.url (some t) f <;>
        cases w.store.submodels (encodeId (submodelId t f)) <;> simp [ht]
      rename_i sel _
      by_cases hstar : "*" ∈ sel <;> simp [hstar]
  · rw [Store.retire_nil]


/-- What a cycle does to the submodel of an isolated feature, on a well-timed policy with one
source rule, when every fetch succeeds and every listed thing has an id: `cleanSlot`, then
`featureSlot` once for each listing of `t`. -/
theorem cycle_slot (hsrc : config.sourceRules = [s]) (hc : config.WellTimed host.fromisoformat)
    (hs : snap.Serves config) (hid : snap.Identified config) (hiso : snap.Isolates s t f)
    (w : World) :
    (cycle config snap host now w).store.submodels (encodeId (submodelId t f)) =
      if config.basyxConfigured then
        (featureSlot config host now s.url t f ((snap.features s.url s.auth t).bind (·.get? f)))^[
          ((snap.things s.url s.auth).getD []).countP (·.thingId == some t)]
          (cleanSlot config host now s.url t f (snap.feature? s t f)
            (w.store.submodels (encodeId (submodelId t f))))
      else w.store.submodels (encodeId (submodelId t f)) := by
  have hlisted : ∀ th ∈ (snap.things s.url s.auth).getD [], ∀ t' feats, th.thingId = some t' →
      snap.features s.url s.auth t' = some feats →
        ∀ e ∈ feats.entries, submodelId t' e.1 = submodelId t f → t' = t :=
    fun th hth t' feats hid hF e he =>
      hiso th t' e.1 e.2 ⟨reportsThing_of_mem hth, feats, by simpa [hid] using hF, he⟩ hid
  rw [cycle, reconcile_submodels hc hs hid, reconcileSubmodels]
  by_cases hb : config.basyxConfigured
  · simp only [hb, Bool.not_true, Bool.false_eq_true, if_false, if_true, hsrc, List.foldl_cons,
      List.foldl_nil, thingsSubmodels_apply]
    rw [thingsSlot_isolated _ _ _ _ _ _ _ _ _ hlisted, cleanup_slot hsrc hc hs hiso, if_pos hb]
  · simp only [Bool.not_eq_true] at hb
    simp only [hb, Bool.not_false, if_true, Bool.false_eq_true, if_false, cleanup_slot hsrc hc hs hiso]

/-- On a well-timed policy with one source rule, two snapshots that list thing `t` as many times
and report the same data for its feature `f`, where no other thing has a feature under `t:f`,
leave the submodel `t:f` the same after a cycle from the same BaSyx, when every fetch succeeds and
every listed thing has an id. -/
theorem cycle_isolates_submodel (hsrc : config.sourceRules = [s])
    (hc : config.WellTimed host.fromisoformat) {snap₁ snap₂ : Snapshot}
    (hs₁ : snap₁.Serves config) (hs₂ : snap₂.Serves config)
    (hid₁ : snap₁.Identified config) (hid₂ : snap₂.Identified config)
    (hi₁ : snap₁.Isolates s t f) (hi₂ : snap₂.Isolates s t f)
    (hn : ((snap₁.things s.url s.auth).getD []).countP (·.thingId == some t) =
      ((snap₂.things s.url s.auth).getD []).countP (·.thingId == some t))
    (hf : (snap₁.features s.url s.auth t).bind (·.get? f) =
      (snap₂.features s.url s.auth t).bind (·.get? f))
    (w : World) :
    (cycle config snap₁ host now w).store.submodels (encodeId (submodelId t f)) =
      (cycle config snap₂ host now w).store.submodels (encodeId (submodelId t f)) := by
  have hany : ((snap₁.things s.url s.auth).getD []).any (·.thingId == some t) =
      ((snap₂.things s.url s.auth).getD []).any (·.thingId == some t) := by
    rw [Bool.eq_iff_iff, List.any_eq_true, List.any_eq_true, ← List.countP_pos_iff,
      ← List.countP_pos_iff, hn]
  have hfeat : snap₁.feature? s t f = snap₂.feature? s t f := by
    simp only [Snapshot.feature?, hany, hf]
  rw [cycle_slot hsrc hc hs₁ hid₁ hi₁, cycle_slot hsrc hc hs₂ hid₂ hi₂, hn, hf, hfeat]

end Deletes

/-! ## Two listings of one source

`pairSnapshot extra` lists thing `a`, with feature `b:c`, and the things of `extra`, each with
feature `c`. An extra thing `x` leaves `a:b:c` alone; an extra thing `a:b` writes into it. -/

/-- One source rule at `u` exporting every property of every feature of every thing, with a
downtime window in the year 2000. -/
def wildcardRule : SourceRule :=
  { source_url := some "u", things := some [
      { thing_id := some "*", downtime := some ⟨some "2000-01-01T00:00:00", some "2000-01-01T00:00:00"⟩,
        features := some [{ feature_id := some "*", properties := some ["*"] }] }] }

/-- The policy of the one source rule `wildcardRule`. -/
def wildcardPolicy : Config := { sources := some [wildcardRule], basyx_url := some "b" }

/-- The thing rule of `wildcardPolicy` carries two naive timestamps. -/
theorem wildcardPolicy_wellTimed : wildcardPolicy.WellTimed fromisoformat2000 := by
  intro s hs r hr
  simp only [wildcardPolicy, Config.sourceRules, Option.getD_some, List.mem_singleton] at hs
  subst hs
  simp only [wildcardRule, SourceRule.thingRules, Option.getD_some, List.mem_singleton] at hr
  subst hr
  exact ⟨_, _, rfl, rfl, rfl, rfl⟩

/-- The host of the year-2000 timestamps, whose `str` writes a JSON string as it is. -/
def textHost : Host := { host2000 with str := fun | .str s => s | _ => "" }

/-- A source that lists thing `a`, then the ids of `extra`. Thing `a` has feature `b:c`, whose
property `p` is `"one"`; every other thing has feature `c`, whose property `p` is `"two"`. -/
def pairSnapshot (extra : List String) : Snapshot :=
  ⟨fun _ _ => some (⟨some "a"⟩ :: extra.map fun id => ⟨some id⟩),
    fun _ _ id => some (if id = "a" then ⟨[("b:c", ⟨some ⟨[("p", .str "one")], by simp⟩⟩)], by simp⟩
      else ⟨[("c", ⟨some ⟨[("p", .str "two")], by simp⟩⟩)], by simp⟩)⟩

/-- Every fetch from `pairSnapshot extra` succeeds. -/
theorem pairSnapshot_serves (extra : List String) (config : Config) :
    (pairSnapshot extra).Serves config :=
  fun _ _ => ⟨_, rfl, fun _ _ => rfl⟩

/-- Every thing that `pairSnapshot extra` lists has an id. -/
theorem pairSnapshot_identified (extra : List String) (config : Config) :
    (pairSnapshot extra).Identified config := by
  rintro s - th ⟨ths, hths, hth⟩
  simp only [pairSnapshot, Option.some.injEq] at hths
  subst hths
  simp only [List.mem_cons, List.mem_map] at hth
  rcases hth with rfl | ⟨id, -, rfl⟩ <;> rfl

/-- Feature `b:c` of `a` is isolated when no extra thing joins `c` to `a:b:c`. -/
theorem pairSnapshot_isolates (extra : List String)
    (h : ∀ id ∈ extra, submodelId id "c" ≠ submodelId "a" "b:c") :
    (pairSnapshot extra).Isolates wildcardRule "a" "b:c" := by
  rintro th t' f' d ⟨⟨ths, hths, hth⟩, feats, hF, he⟩ hid hk
  simp only [pairSnapshot, Option.some.injEq] at hths
  subst hths
  simp only [List.mem_cons, List.mem_map] at hth
  rcases hth with rfl | ⟨id, hid', rfl⟩
  · exact (Option.some.inj hid).symm
  · have ht : t' = id := (Option.some.inj hid).symm
    subst ht
    by_cases ha : t' = "a"
    · exact ha
    · simp only [pairSnapshot, pyFormat_some, ha, if_false, Option.some.injEq] at hF
      subst hF
      simp only [List.mem_singleton, Prod.mk.injEq] at he
      obtain ⟨rfl, -⟩ := he
      exact absurd hk (h t' hid')

/-- A listing of `a` alone and one of `a` and `x` leave the submodel `a:b:c` the same. -/
theorem cycle_isolates_submodel_pair :
    (pairSnapshot []).Isolates wildcardRule "a" "b:c" ∧
      (pairSnapshot ["x"]).Isolates wildcardRule "a" "b:c" ∧
      (cycle wildcardPolicy (pairSnapshot []) textHost 0 ⟨.empty, []⟩).store.submodels
          (encodeId (submodelId "a" "b:c")) =
        (cycle wildcardPolicy (pairSnapshot ["x"]) textHost 0 ⟨.empty, []⟩).store.submodels
          (encodeId (submodelId "a" "b:c")) :=
  ⟨pairSnapshot_isolates [] (by decide), pairSnapshot_isolates ["x"] (by decide),
    cycle_isolates_submodel (show wildcardPolicy.sourceRules = [wildcardRule] from rfl)
      wildcardPolicy_wellTimed (pairSnapshot_serves _ _)
      (pairSnapshot_serves _ _) (pairSnapshot_identified _ _) (pairSnapshot_identified _ _)
      (pairSnapshot_isolates [] (by decide)) (pairSnapshot_isolates ["x"] (by decide)) rfl rfl _⟩

/-- Without isolation, a thing writes into another's submodel: the two listings agree on thing
`a` and on its feature `b:c`, yet a cycle from an empty BaSyx stores `one` for property `p` of
`a:b:c` when the source lists `a` alone, and the quoted `"two"` of feature `c` of `a:b` when it
lists `a:b` too. -/
theorem cycle_submodel_collides :
    wildcardPolicy.sourceRules = [wildcardRule] ∧
      wildcardPolicy.WellTimed textHost.fromisoformat ∧
      (((pairSnapshot []).things wildcardRule.url wildcardRule.auth).getD []).countP
          (·.thingId == some "a") =
        (((pairSnapshot ["a:b"]).things wildcardRule.url wildcardRule.auth).getD []).countP
          (·.thingId == some "a") ∧
      (pairSnapshot []).features wildcardRule.url wildcardRule.auth "a" =
        (pairSnapshot ["a:b"]).features wildcardRule.url wildcardRule.auth "a" ∧
      submodelId "a:b" "c" = submodelId "a" "b:c" ∧
      (cycle wildcardPolicy (pairSnapshot []) textHost 0 ⟨.empty, []⟩).store.value
        (encodeId (submodelId "a" "b:c")) "p" = some "one" ∧
      (cycle wildcardPolicy (pairSnapshot ["a:b"]) textHost 0 ⟨.empty, []⟩).store.value
        (encodeId (submodelId "a" "b:c")) "p" = some "\"two\"" :=
  ⟨rfl, wildcardPolicy_wellTimed, by decide, rfl, rfl, by decide, by decide⟩


end TwinExporter
