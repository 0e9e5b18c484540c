import TwinExporter.Disjoint

/-!
# The value an element holds

`update_basyx_element` writes a property in one of two ways. On a missing element it posts
`{"idShort": element_id, ..., "value": str(value)}`, so BaSyx stores `str(value)`. On an existing
one it patches `$value` with `json=f'"{value}"'`: the JSON body is the string `"` + `str(value)` +
`"`, quotes included, which BaSyx stores. The two paths store different texts for the same value,
whatever `str` writes (`updateBasyxElement_value`), and a pass over a BaSyx that already holds the
element stores the quoted text (`reconcile_stores_quoted`).
-/

namespace TwinExporter

/-- The value stored for element `p` of the submodel at token `k`. -/
def Store.value (σ : Store) (k p : String) : Option String := (σ.submodels k).bind (·.elements p)

/-- An element exists exactly when it holds a value. -/
theorem Store.hasElement_eq (σ : Store) (k p : String) : σ.hasElement k p = (σ.value k p).isSome := rfl

/-- The text `f'"{value}"'` differs from `str(value)`: it is two characters longer. -/
theorem quoted_ne (s : String) : "\"" ++ s ++ "\"" ≠ s := by
  intro h
  have := congrArg String.length h
  rw [String.length_append, String.length_append, show "\"".length = 1 from rfl] at this
  omega

/-- `update_basyx_element` in a submodel that exists stores `str(value)` on a missing element and
`"` + `str(value)` + `"` on an existing one. -/
theorem updateBasyxElement_value (host : Host) (submodel_id p : String) (v : JsonValue) (w : World)
    (hs : (w.store.submodels (encodeId submodel_id)).isSome) :
    ∃ w', updateBasyxElement host submodel_id p v w = .ok w' ∧
      w'.store.value (encodeId submodel_id) p =
        some (if w.store.hasElement (encodeId submodel_id) p then "\"" ++ host.str v ++ "\""
          else host.str v) := by
  obtain ⟨sm, hsm⟩ := Option.isSome_iff_exists.mp hs
  unfold updateBasyxElement
  by_cases he : w.store.hasElement (encodeId submodel_id) p
  · have hp : (sm.elements p).isSome := by simpa [Store.hasElement, hsm] using he
    simp [he, World.post, World.send, Store.apply, hsm, hp, Store.value]
  · have hp : (sm.elements p).isSome = false := by simpa [Store.hasElement, hsm] using he
    simp [he, World.post, World.send, Store.apply, hsm, hp, Store.value]

/-- A policy exporting every property of feature `f` of thing `t` from source `u`, with a downtime
window in the year 2000. -/
def mirrorPolicy : Config :=
  let window : Downtime := ⟨some "2000-01-01T00:00:00", some "2000-01-01T00:00:00"⟩
  { sources := some [{ source_url := some "u", things := some [
      { thing_id := some "t", downtime := some window,
        features := some [{ feature_id := some "f", properties := some ["*"] }] }] }],
    basyx_url := some "b" }

/-- The thing rule of `mirrorPolicy` carries two naive timestamps. -/
theorem mirrorPolicy_wellTimed : mirrorPolicy.WellTimed fromisoformat2000 := by
  intro s hs r hr
  simp only [mirrorPolicy, Config.sourceRules, Option.getD_some, List.mem_singleton] at hs
  subst hs
  simp only [SourceRule.thingRules, Option.getD_some, List.mem_singleton] at hr
  subst hr
  exact ⟨_, _, rfl, rfl, rfl, rfl⟩

/-- Source `u` reports thing `t` with feature `f`, whose one property `p` has value `v`. -/
def valueSnapshot (v : JsonValue) : Snapshot :=
  ⟨fun _ _ => some [⟨some "t"⟩],
    fun _ _ _ => some ⟨[("f", ⟨some ⟨[("p", v)], by simp⟩⟩)], by simp⟩⟩

/-- Source `u` reports one feature, `f` of thing `t`, whose bundle is `p` alone. -/
theorem valueSnapshot_reports {v : JsonValue} {s : SourceRule} {th : Thing} {fid : String}
    {d : Feature} (h : (valueSnapshot v).Reports s th fid d) :
    th = ⟨some "t"⟩ ∧ fid = "f" ∧ d = ⟨some ⟨[("p", v)], by simp⟩⟩ := by
  obtain ⟨⟨ths, hT, hth⟩, feats, hF, hfe⟩ := h
  simp only [valueSnapshot, Option.some.injEq] at hT hF
  subst hT hF
  simp only [List.mem_singleton] at hth hfe
  simp only [Prod.mk.injEq] at hfe
  exact ⟨hth, hfe.1, hfe.2⟩

/-- `mirrorPolicy` and `valueSnapshot v` reach every place from one pair: there is one source
rule, and it reports one feature. -/
theorem valueSnapshot_unshared (v : JsonValue) : Unshared mirrorPolicy (valueSnapshot v) := by
  refine ⟨fun s₁ h₁ s₂ h₂ _ _ _ _ _ _ _ => ?_, fun _ _ _ _ _ _ _ _ _ _ _ _ h₁ h₂ ht₁ ht₂ _ => ?_⟩
  · simp only [mirrorPolicy, Config.sourceRules, Option.getD_some, List.mem_singleton] at h₁ h₂
    subst h₁ h₂
    exact ⟨rfl, rfl⟩
  · obtain ⟨rfl, rfl, -⟩ := valueSnapshot_reports h₁
    obtain ⟨rfl, rfl, -⟩ := valueSnapshot_reports h₂
    exact ⟨(Option.some.inj ht₁).symm.trans (Option.some.inj ht₂), rfl⟩

/-- BaSyx with the shell of `t`, referencing `t:f`, and the submodel `t:f`, whose element `p` is
present with value `old` when `present` holds. -/
def mirroredStore (present : Bool) : Store :=
  ⟨fun k => if k = encodeId "t" then some ⟨["t:f"]⟩ else none,
    fun k => if k = encodeId "t:f" then
      some ⟨fun p => if p = "p" ∧ present then some "old" else none⟩ else none⟩

/-- A pass on `valueSnapshot v` stores `str(v)` for property `p` when the element is missing, and
`"` + `str(v)` + `"` when it exists, whatever `str` writes: the update path does not store the
string form of the value. -/
theorem reconcile_stores_quoted (str : JsonValue → String) (v : JsonValue) :
    mirrorPolicy.WellTimed fromisoformat2000 ∧
      resolve mirrorPolicy { host2000 with str } 0 "u" (some "t") "f" = .found ["*"] ∧
      (reconcile mirrorPolicy (valueSnapshot v) { host2000 with str } 0
        ⟨mirroredStore false, []⟩).store.value (encodeId "t:f") "p" = some (str v) ∧
      (reconcile mirrorPolicy (valueSnapshot v) { host2000 with str } 0
        ⟨mirroredStore true, []⟩).store.value (encodeId "t:f") "p" = some ("\"" ++ str v ++ "\"") ∧
      "\"" ++ str v ++ "\"" ≠ str v :=
  ⟨mirrorPolicy_wellTimed, rfl, rfl, rfl, quoted_ne _⟩

end TwinExporter
