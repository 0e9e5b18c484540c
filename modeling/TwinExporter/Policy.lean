import Mathlib.Data.List.Basic

/-!
# The export policy and its resolver

`exporter_config.json`, with the keys that `exporter.py` reads, and `get_export_config`, which
decides for a `(source_url, thing_id, feature_id)` triple which properties to export. A key that
the code reads with `.get(key, default)` is an `Option` here, and the code applies the default.

`get_export_config` is three nested loops with early returns: over the source rules with the
URL, their thing rules for the thing (or `"*"`), and the feature rules for the feature (or `"*"`).
A loop that runs out falls through to the next iteration of the loop around it. Each loop is a
function returning `none` when it runs out, and `<|>` continues with the enclosing loop.
Before the feature loop, a matching thing rule's downtime window is parsed with
`datetime.fromisoformat` and compared with the clock; inside the window the thing is skipped.

`fromisoformat` is a parameter: the model does not parse ISO 8601. What the resolver needs of a
`datetime` is whether it carries a UTC offset, since Python raises `TypeError` when it orders an
offset-aware datetime against the naive `datetime.now()`.
-/

namespace TwinExporter

/-- A `datetime` as `datetime.fromisoformat` returns it: its time in microseconds (the wall-clock
time of a naive one, the UTC instant of an aware one), and whether it carries a UTC offset. -/
structure DateTime where
  /-- Microseconds. -/
  micros : Nat
  /-- Whether the datetime is offset-aware. -/
  aware : Bool
  deriving DecidableEq, Repr

/-- `a <= b` on datetimes: `none` where Python raises `TypeError`, on a naive and an aware one. -/
def DateTime.le (a b : DateTime) : Option Bool :=
  if a.aware = b.aware then some (decide (a.micros ≤ b.micros)) else none

/-- A rule of a thing rule's `features` list. -/
structure FeatureRule where
  /-- `feature_id`, a feature's id or `"*"`. -/
  feature_id : Option String := none
  /-- `properties`, property names or `"*"`. -/
  properties : Option (List String) := none
  deriving DecidableEq, Repr

/-- A thing rule's `downtime` block. -/
structure Downtime where
  /-- `start`, an ISO timestamp. -/
  start : Option String := none
  /-- `end`, an ISO timestamp. -/
  «end» : Option String := none
  deriving DecidableEq, Repr

/-- A rule of a source rule's `things` list. -/
structure ThingRule where
  /-- `thing_id`, a thing's id or `"*"`. -/
  thing_id : Option String := none
  /-- `downtime`. -/
  downtime : Option Downtime := none
  /-- `features`. -/
  features : Option (List FeatureRule) := none
  deriving DecidableEq, Repr

/-- A rule of `data_to_export.sources`. -/
structure SourceRule where
  /-- `source_url`, the Ditto API root of the source. -/
  source_url : Option String := none
  /-- `auth_header`, the `Authorization` header sent to the source. -/
  auth_header : Option String := none
  /-- `things`. -/
  things : Option (List ThingRule) := none
  deriving DecidableEq, Repr

/-- The policy document: `data_to_export.sources`, `basyx.url`, `security.verify_signatures`
and `security.public_key_path`. -/
structure Config where
  /-- `data_to_export.sources`. -/
  sources : Option (List SourceRule) := none
  /-- `basyx.url`. -/
  basyx_url : Option String := none
  /-- `security.verify_signatures`. -/
  verify_signatures : Option Bool := none
  /-- `security.public_key_path`. -/
  public_key_path : Option String := none
  deriving DecidableEq, Repr

/-- `config.get("data_to_export", {}).get("sources", [])`. -/
def Config.sourceRules (config : Config) : List SourceRule := config.sources.getD []

/-- `if not basyx_url`: both passes need a non-empty `basyx.url`. -/
def Config.basyxConfigured (config : Config) : Bool := config.basyx_url.getD "" != ""

/-- `config.get("security", {}).get("verify_signatures", False)`. -/
def Config.verifySignatures (config : Config) : Bool := config.verify_signatures.getD false

/-- `config.get("security", {}).get("public_key_path", "public_key.pem")`. -/
def Config.publicKeyPath (config : Config) : String := config.public_key_path.getD "public_key.pem"

/-- `source_config.get("source_url", "")`. -/
def SourceRule.url (s : SourceRule) : String := s.source_url.getD ""

/-- `source_config.get("auth_header", "")`: the `Authorization` header, sent when non-empty. -/
def SourceRule.auth (s : SourceRule) : String := s.auth_header.getD ""

/-- `source_config.get("things", [])`. -/
def SourceRule.thingRules (s : SourceRule) : List ThingRule := s.things.getD []

/-- What `get_export_config` gives back: the `properties` list it returns, `None`, or that it
raised. -/
inductive Resolution where
  /-- A property list: the properties to export, `"*"` for all. -/
  | found (properties : List String)
  /-- `None`: the feature is not exported. -/
  | unconfigured
  /-- The call raised. -/
  | raised
  deriving DecidableEq, Repr

section Resolver

variable (fromisoformat : String → Option DateTime) (now : Nat)

/-- `datetime.fromisoformat` on what `.get` found: `None` raises `TypeError`. -/
def parseIso : Option String → Option DateTime
  | none => none
  | some s => fromisoformat s

/-- `downtime_start <= time_now <= downtime_end` on a thing rule, with `time_now` the naive
`datetime.now()`: the second comparison runs only when the first holds, and `none` is a raise. -/
def inDowntime (rule : ThingRule) : Option Bool := do
  let dt := rule.downtime.getD {}
  let start ← parseIso fromisoformat dt.start
  let stop ← parseIso fromisoformat dt.end
  let t : DateTime := ⟨now, false⟩
  match start.le t with
  | some true => t.le stop
  | r => r

/-- `config_feature_id == feature_id or config_feature_id == "*"`. -/
def FeatureRule.matches (feature_id : String) (r : FeatureRule) : Bool :=
  r.feature_id.getD "" == feature_id || r.feature_id.getD "" == "*"

/-- `config_thing_id == thing_id or config_thing_id == "*"`; a thing without `thingId` matches only
`"*"`. -/
def ThingRule.matches (thing_id : Option String) (r : ThingRule) : Bool :=
  some (r.thing_id.getD "") == thing_id || r.thing_id.getD "" == "*"

/-- The `features` loop: the `properties` of the first feature rule that matches. -/
def featuresLoop (feature_id : String) : List FeatureRule → Option (List String)
  | [] => none
  | r :: rs => if r.matches feature_id then some (r.properties.getD []) else featuresLoop feature_id rs

/-- The `things` loop of one source rule: `none` when it runs out. A matching rule in its downtime
returns `None`; otherwise its feature loop returns, or the loop goes on. -/
def thingsLoop (thing_id : Option String) (feature_id : String) : List ThingRule → Option Resolution
  | [] => none
  | r :: rs =>
    if r.matches thing_id then
      match inDowntime fromisoformat now r with
      | none => some .raised
      | some true => some .unconfigured
      | some false =>
        ((featuresLoop feature_id (r.features.getD [])).map .found) <|>
          thingsLoop thing_id feature_id rs
    else thingsLoop thing_id feature_id rs

/-- The `sources` loop: `none` when it runs out. -/
def sourcesLoop (source_url : String) (thing_id : Option String) (feature_id : String) :
    List SourceRule → Option Resolution
  | [] => none
  | s :: ss =>
    (if s.url = source_url then thingsLoop fromisoformat now thing_id feature_id s.thingRules
      else none) <|> sourcesLoop source_url thing_id feature_id ss

/-- `get_export_config(source_url, thing_id, feature_id, config)`, with `datetime.now()` read as
`now`. -/
def getExportConfig (source_url : String) (thing_id : Option String) (feature_id : String)
    (config : Config) : Resolution :=
  (sourcesLoop fromisoformat now source_url thing_id feature_id config.sourceRules).getD
    .unconfigured

/-! ## The resolver against §4.2

`getExportConfigSpec` is §4.2 as it reads: the first source rule with the URL, its first thing rule
for the thing, then the downtime window and the first feature rule, and nothing else. The code
differs: a matching thing rule without a matching feature rule does not end the search, which
goes on with the next thing rules and source rules (`getExportConfig_ne_spec`). What the code
computes is `getExportConfigFirst`: the first thing rule, among the matching rules of every source
rule with the URL, that is in its downtime window or has a matching feature rule, decides.

That holds on a well-timed policy (`Config.WellTimed`). In general the search stops at the first
candidate rule whose downtime check raises or that decides (`getExportConfig_eq_halt`), and the
resolver raises exactly when that rule's check raises (`getExportConfig_eq_raised_iff`). §4.2 reads
a thing rule without a `downtime` block as never in downtime, and §7 asks that malformed timestamps
not crash the resolver; the code raises on both, since `datetime.fromisoformat` raises on `None`
and on a string that is not ISO 8601 (`getExportConfig_raises`).
-/

/-- A thing rule whose `downtime` block holds two timestamps that parse to naive datetimes, which
Python compares with `datetime.now()`. -/
def ThingRule.Timed (r : ThingRule) : Prop :=
  ∃ start stop : DateTime, parseIso fromisoformat (r.downtime.getD {}).start = some start ∧
    parseIso fromisoformat (r.downtime.getD {}).end = some stop ∧
    start.aware = false ∧ stop.aware = false

/-- Every thing rule of the policy carries a downtime block with two comparable timestamps. -/
def Config.WellTimed (config : Config) : Prop :=
  ∀ s ∈ config.sourceRules, ∀ r ∈ s.thingRules, r.Timed fromisoformat

/-- `get_export_config` as §4.2 describes it: no fall-through past the first matching source rule
or thing rule. -/
def getExportConfigSpec (source_url : String) (thing_id : Option String) (feature_id : String)
    (config : Config) : Resolution :=
  match config.sourceRules.find? (·.url = source_url) with
  | none => .unconfigured
  | some s =>
    match s.thingRules.find? (·.matches thing_id) with
    | none => .unconfigured
    | some r =>
      match inDowntime fromisoformat now r with
      | none => .raised
      | some true => .unconfigured
      | some false =>
        ((featuresLoop feature_id (r.features.getD [])).map .found).getD .unconfigured

/-- The thing rules that a lookup visits, in order: those matching the thing, of every source rule
with the URL. -/
def candidateRules (source_url : String) (thing_id : Option String) (config : Config) :
    List ThingRule :=
  config.sourceRules.flatMap fun s =>
    if s.url = source_url then s.thingRules.filter (·.matches thing_id) else []

/-- A thing rule decides a lookup when it is in its downtime window or has a feature rule for the
feature. -/
def ThingRule.decides (feature_id : String) (r : ThingRule) : Bool :=
  inDowntime fromisoformat now r == some true ||
    (featuresLoop feature_id (r.features.getD [])).isSome

/-- What a deciding thing rule resolves the feature to. -/
def ThingRule.outcome (feature_id : String) (r : ThingRule) : Resolution :=
  if inDowntime fromisoformat now r = some true then .unconfigured
  else ((featuresLoop feature_id (r.features.getD [])).map .found).getD .unconfigured

/-- First match with fall-through: the first candidate rule that decides the lookup. -/
def getExportConfigFirst (source_url : String) (thing_id : Option String) (feature_id : String)
    (config : Config) : Resolution :=
  (((candidateRules source_url thing_id config).find?
    (ThingRule.decides fromisoformat now feature_id)).map
      (ThingRule.outcome fromisoformat now feature_id)).getD .unconfigured

/-- A timed rule is in its downtime window exactly when the clock is between its two timestamps. -/
theorem inDowntime_of_timed {r : ThingRule} (h : r.Timed fromisoformat) :
    ∃ b, inDowntime fromisoformat now r = some b := by
  obtain ⟨start, stop, h1, h2, h3, h4⟩ := h
  simp only [inDowntime, h1, h2, Option.bind_eq_bind, Option.some_bind, DateTime.le, h3, h4]
  split <;> simp_all

/-- A thing rule stops the search: its downtime check raises, or it decides the lookup. -/
def ThingRule.halts (feature_id : String) (r : ThingRule) : Bool :=
  (inDowntime fromisoformat now r).isNone || r.decides fromisoformat now feature_id

/-- What a rule that stops the search gives back: the raise of its downtime check, or its
outcome. -/
def ThingRule.result (feature_id : String) (r : ThingRule) : Resolution :=
  if (inDowntime fromisoformat now r).isNone then .raised
  else r.outcome fromisoformat now feature_id

/-- A deciding rule's outcome is a property list or `None`, never a raise. -/
theorem ThingRule.outcome_ne_raised (feature_id : String) (r : ThingRule) :
    r.outcome fromisoformat now feature_id ≠ .raised := by
  unfold ThingRule.outcome
  split <;> cases featuresLoop feature_id (r.features.getD []) <;> simp

/-- The loop over one source rule's things takes the first matching rule that stops the search. -/
theorem thingsLoop_eq_halt (thing_id : Option String) (feature_id : String) (rs : List ThingRule) :
    thingsLoop fromisoformat now thing_id feature_id rs =
      ((rs.filter (·.matches thing_id)).find? (ThingRule.halts fromisoformat now feature_id)).map
        (ThingRule.result fromisoformat now feature_id) := by
  induction rs with
  | nil => rfl
  | cons r rs ih =>
    simp only [thingsLoop]
    by_cases hm : r.matches thing_id
    · simp only [hm, if_true, List.filter_cons_of_pos hm, List.find?_cons]
      cases hb : inDowntime fromisoformat now r with
      | none => simp [ThingRule.halts, ThingRule.result, hb]
      | some b =>
        cases b <;> cases hf : featuresLoop feature_id (r.features.getD []) <;>
          simp [ThingRule.halts, ThingRule.result, ThingRule.decides, ThingRule.outcome, hb, hf, ih]
    · simp [hm, ih]

/-- The loop over the source rules takes the first candidate rule that stops the search. -/
theorem sourcesLoop_eq_halt (source_url : String) (thing_id : Option String) (feature_id : String)
    (ss : List SourceRule) :
    sourcesLoop fromisoformat now source_url thing_id feature_id ss =
      ((ss.flatMap fun s => if s.url = source_url then s.thingRules.filter (·.matches thing_id)
        else []).find? (ThingRule.halts fromisoformat now feature_id)).map
          (ThingRule.result fromisoformat now feature_id) := by
  induction ss with
  | nil => rfl
  | cons s ss ih =>
    simp only [sourcesLoop, List.flatMap_cons, List.find?_append, ih]
    by_cases hu : s.url = source_url
    · simp only [hu, if_true, thingsLoop_eq_halt]
      cases (s.thingRules.filter (·.matches thing_id)).find?
        (ThingRule.halts fromisoformat now feature_id) <;> rfl
    · simp [hu]

/-- `get_export_config` is decided by the first candidate rule that stops the search. -/
theorem getExportConfig_eq_halt (source_url : String) (thing_id : Option String)
    (feature_id : String) (config : Config) :
    getExportConfig fromisoformat now source_url thing_id feature_id config =
      (((candidateRules source_url thing_id config).find?
        (ThingRule.halts fromisoformat now feature_id)).map
          (ThingRule.result fromisoformat now feature_id)).getD .unconfigured := by
  rw [getExportConfig, sourcesLoop_eq_halt, candidateRules]

/-- `get_export_config` raises exactly when the first candidate rule that stops the search does so
because its downtime check raises. -/
theorem getExportConfig_eq_raised_iff (source_url : String) (thing_id : Option String)
    (feature_id : String) (config : Config) :
    getExportConfig fromisoformat now source_url thing_id feature_id config = .raised ↔
      ∃ r, (candidateRules source_url thing_id config).find?
        (ThingRule.halts fromisoformat now feature_id) = some r ∧
          (inDowntime fromisoformat now r).isNone := by
  rw [getExportConfig_eq_halt]
  cases (candidateRules source_url thing_id config).find?
    (ThingRule.halts fromisoformat now feature_id) with
  | none => simp
  | some r =>
    simp only [Option.map_some', Option.getD_some, ThingRule.result, Option.some.injEq,
      exists_eq_left']
    split <;> simp_all [ThingRule.outcome_ne_raised]

/-- A candidate rule is a thing rule of a source rule of the policy. -/
theorem mem_thingRules_of_candidate {source_url : String} {thing_id : Option String}
    {config : Config} {r : ThingRule} (h : r ∈ candidateRules source_url thing_id config) :
    ∃ s ∈ config.sourceRules, r ∈ s.thingRules := by
  obtain ⟨s, hs, hr⟩ := List.mem_flatMap.mp h
  split at hr
  · exact ⟨s, hs, (List.mem_filter.mp hr).1⟩
  · cases hr

/-- On a timed rule the downtime check does not raise, so the rule stops the search exactly when
it decides the lookup, with its outcome. -/
theorem halts_of_timed {r : ThingRule} (h : r.Timed fromisoformat) (feature_id : String) :
    r.halts fromisoformat now feature_id = r.decides fromisoformat now feature_id ∧
      r.result fromisoformat now feature_id = r.outcome fromisoformat now feature_id := by
  obtain ⟨b, hb⟩ := inDowntime_of_timed fromisoformat now h
  simp [ThingRule.halts, ThingRule.result, hb]

/-- The first element found by one test, mapped, is the first found by another, mapped another
way, when the tests and the maps agree on the list. -/
theorem find?_map_congr {α β : Type} {l : List α} {p q : α → Bool} {f g : α → β}
    (h : ∀ x ∈ l, p x = q x ∧ f x = g x) : (l.find? p).map f = (l.find? q).map g := by
  induction l with
  | nil => rfl
  | cons x l ih =>
    obtain ⟨hp, hf⟩ := h x (List.mem_cons_self _ _)
    have ih := ih fun y hy => h y (List.mem_cons_of_mem _ hy)
    rw [List.find?_cons, List.find?_cons, hp]
    cases q x
    · exact ih
    · simp [hf]

/-- On a well-timed policy, `get_export_config` is first match with fall-through. -/
theorem getExportConfig_eq_first (source_url : String) (thing_id : Option String)
    (feature_id : String) (config : Config) (hc : config.WellTimed fromisoformat) :
    getExportConfig fromisoformat now source_url thing_id feature_id config =
      getExportConfigFirst fromisoformat now source_url thing_id feature_id config := by
  rw [getExportConfig_eq_halt, getExportConfigFirst, find?_map_congr fun r hr => ?_]
  obtain ⟨s, hs, hr⟩ := mem_thingRules_of_candidate hr
  exact halts_of_timed fromisoformat now (hc s hs r hr) feature_id

/-- On a well-timed policy, `get_export_config` does not raise. -/
theorem getExportConfig_ne_raised (source_url : String) (thing_id : Option String)
    (feature_id : String) (config : Config) (hc : config.WellTimed fromisoformat) :
    getExportConfig fromisoformat now source_url thing_id feature_id config ≠ .raised := by
  rw [Ne, getExportConfig_eq_raised_iff]
  rintro ⟨r, hr, hnone⟩
  obtain ⟨s, hs, hr⟩ := mem_thingRules_of_candidate (List.mem_of_find?_eq_some hr)
  obtain ⟨b, hb⟩ := inDowntime_of_timed fromisoformat now (hc s hs r hr)
  simp [hb] at hnone

/-- A thing rule whose `downtime` block is missing, or holds a timestamp that `fromisoformat`
rejects, has a downtime check that raises: `.get("start")` gives `None` without the block, and
`datetime.fromisoformat(None)` raises `TypeError`. -/
theorem inDowntime_eq_none {r : ThingRule}
    (h : parseIso fromisoformat (r.downtime.getD {}).start = none ∨
      parseIso fromisoformat (r.downtime.getD {}).end = none) :
    inDowntime fromisoformat now r = none := by
  rcases h with h | h <;> simp [inDowntime, h]

/-- The search raises at the first rule it reaches, past rules that neither raise nor decide,
whose `downtime` block is missing or holds a timestamp that `fromisoformat` rejects. -/
theorem getExportConfig_raises {source_url : String} {thing_id : Option String}
    {feature_id : String} {config : Config} {pre post : List ThingRule} {r : ThingRule}
    (hc : candidateRules source_url thing_id config = pre ++ r :: post)
    (hpre : ∀ r' ∈ pre, r'.halts fromisoformat now feature_id = false)
    (hbad : parseIso fromisoformat (r.downtime.getD {}).start = none ∨
      parseIso fromisoformat (r.downtime.getD {}).end = none) :
    getExportConfig fromisoformat now source_url thing_id feature_id config = .raised := by
  have hr : inDowntime fromisoformat now r = none := inDowntime_eq_none fromisoformat now hbad
  have hhalt : r.halts fromisoformat now feature_id = true := by simp [ThingRule.halts, hr]
  have hskip : pre.find? (ThingRule.halts fromisoformat now feature_id) = none :=
    List.find?_eq_none.mpr fun r' hr' => by simp [hpre r' hr']
  rw [getExportConfig_eq_raised_iff]
  exact ⟨r, by rw [hc, List.find?_append, hskip, List.find?_cons_of_pos _ hhalt]; rfl,
    by simp [hr]⟩

end Resolver

/-- The rule of a §3 policy without a `downtime` block: thing `t`, property `p` of feature `f`. -/
def noDowntimeRule : ThingRule :=
  { thing_id := some "t", features := some [{ feature_id := some "f", properties := some ["p"] }] }

/-- One source rule `u` with `noDowntimeRule`. -/
def noDowntimePolicy : Config :=
  { sources := some [{ source_url := some "u", things := some [noDowntimeRule] }] }

/-- Resolving feature `f` of thing `t` on `noDowntimePolicy` raises, even with a `fromisoformat`
that accepts every string, where §4.2 reads the missing block as "never in downtime" and returns
`["p"]`. -/
theorem getExportConfig_raises_noDowntime :
    candidateRules "u" (some "t") noDowntimePolicy = [] ++ noDowntimeRule :: [] ∧
      noDowntimeRule.downtime = none ∧
      getExportConfig (fun _ => some ⟨0, false⟩) 0 "u" (some "t") "f" noDowntimePolicy = .raised :=
  have hc : candidateRules "u" (some "t") noDowntimePolicy = [] ++ noDowntimeRule :: [] := by
    decide
  ⟨hc, rfl, getExportConfig_raises (fun _ => some ⟨0, false⟩) 0 hc
    (fun _ h => absurd h (List.not_mem_nil _)) (Or.inl rfl)⟩

/-- A thing rule for `t` whose feature rule is for `a` only, then a rule for every thing with a
feature rule for `b`; both with the downtime window of the first of January 2000. -/
def fallThroughPolicy : Config :=
  let window : Downtime := ⟨some "2000-01-01T00:00:00", some "2000-01-01T00:00:00"⟩
  { sources := some [{ source_url := some "u", things := some [
      { thing_id := some "t", downtime := some window,
        features := some [{ feature_id := some "a", properties := some ["x"] }] },
      { thing_id := some "*", downtime := some window,
        features := some [{ feature_id := some "b", properties := some ["y"] }] }] }] }

/-- `datetime.fromisoformat` on the timestamp of `fallThroughPolicy`: the naive datetime 730119
days after the first of January of the year 1. -/
def fromisoformat2000 (s : String) : Option DateTime :=
  if s = "2000-01-01T00:00:00" then some ⟨63082281600000000, false⟩ else none

/-- Both thing rules of `fallThroughPolicy` carry two naive timestamps. -/
theorem fallThroughPolicy_wellTimed : fallThroughPolicy.WellTimed fromisoformat2000 := by
  intro s hs r hr
  simp only [fallThroughPolicy, Config.sourceRules, Option.getD_some, List.mem_singleton] at hs
  subst hs
  simp only [SourceRule.thingRules, Option.getD_some, List.mem_cons, List.mem_singleton,
    List.not_mem_nil, or_false] at hr
  rcases hr with rfl | rfl <;> exact ⟨_, _, rfl, rfl, rfl, rfl⟩

/-- On `fallThroughPolicy`, feature `b` of thing `t` at midnight of the first of January of the
year 1 is decided by the first deciding rule. -/
theorem getExportConfig_eq_first_fallThrough :
    fallThroughPolicy.WellTimed fromisoformat2000 ∧
      getExportConfig fromisoformat2000 0 "u" (some "t") "b" fallThroughPolicy =
        getExportConfigFirst fromisoformat2000 0 "u" (some "t") "b" fallThroughPolicy :=
  ⟨fallThroughPolicy_wellTimed,
    getExportConfig_eq_first _ _ _ _ _ _ fallThroughPolicy_wellTimed⟩

/-- Feature `b` of thing `t` falls through the rule for `t` to the wildcard rule, which §4.2 does
not reach. -/
theorem getExportConfig_ne_spec :
    fallThroughPolicy.WellTimed fromisoformat2000 ∧
      getExportConfig fromisoformat2000 0 "u" (some "t") "b" fallThroughPolicy = .found ["y"] ∧
      getExportConfigSpec fromisoformat2000 0 "u" (some "t") "b" fallThroughPolicy =
        .unconfigured :=
  ⟨fallThroughPolicy_wellTimed, by decide, by decide⟩

end TwinExporter
