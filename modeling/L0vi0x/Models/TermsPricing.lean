import L0vi0x.Python.Json

/-! The terms and pricing gate. It refuses a profile whose observations are older than the
policy allows, and counts their age in whole days. -/
namespace L0vi0x.Models

open L0vi0x.Python

/-- A time in microseconds, with the text that `isoformat()` gives; it may have no zone. -/
structure Moment where
  micros : Int
  aware : Bool
  iso : String

/-- `a - b`, in microseconds. -/
def Moment.sub (a b : Moment) : Py Int :=
  if a.aware = b.aware then pure (a.micros - b.micros)
  else raise .typeError "can't subtract offset-naive and offset-aware datetimes"

def dayMicros : Int := 86400 * 1000000

def days (micros : Int) : Int := micros / dayMicros

/-- What the gate reads of a profile. -/
structure Observed where
  provider : String
  modelId : String
  termsObservedAt : Moment
  pricingObservedAt : Moment

structure TermsPricingGate where
  defaults : Json
  providers : Json

def orEmpty (value : Json) : Json := if value.truthy then value else .obj []

/-- `TermsPricingGate(policy_file)`, on the document that the file holds. -/
def TermsPricingGate.make (document : Json) : Py TermsPricingGate := do
  let policy := orEmpty document
  let defaults ← policy.attrGet "default" (.obj [])
  let providers ← policy.attrGet "providers" (.obj [])
  pure ⟨orEmpty defaults, orEmpty providers⟩

section Gate

variable (g : TermsPricingGate)

/-- One threshold: the override, else the default, else thirty days. -/
def TermsPricingGate.threshold (override : Json) (key : String) : Py Int := do
  let fallback ← g.defaults.attrGet key (.int 30)
  let value ← override.attrGet key fallback
  value.toInt

def TermsPricingGate.thresholds (provider : String) : Py (Int × Int) := do
  let override ← g.providers.attrGet provider (.obj [])
  let terms ← g.threshold (orEmpty override) "max_terms_age_days"
  let pricing ← g.threshold (orEmpty override) "max_pricing_age_days"
  pure (terms, pricing)

/-- The refusal of one kind of observation that is too old. -/
def refuseStale (profile : Observed) (kind : String) (observedAt : Moment) (age limit : Int) :
    Py Unit :=
  raiseIf (limit < days age) .policyViolation
    (profile.provider ++ "/" ++ profile.modelId ++ ": routing refused, stale " ++ kind ++
      " (observed " ++ observedAt.iso ++ ", " ++ String.ofList (intText (days age)) ++ "d old, max " ++
      String.ofList (intText limit) ++ "d)")

/-- `check(profile, authorization_context=…, now=…)`, where the clock gives a missing time. -/
def TermsPricingGate.check (profile : Observed) (context : Option Fields) (now : Option Moment)
    (clock : Moment) : Py Unit := do
  raiseIf ((context.getD []).isEmpty) .policyViolation
    (profile.provider ++ "/" ++ profile.modelId ++
      ": routing refused, missing authorization context")
  let now := now.getD clock
  let (maxTerms, maxPricing) ← g.thresholds profile.provider
  let termsAge ← now.sub profile.termsObservedAt
  refuseStale profile "terms" profile.termsObservedAt termsAge maxTerms
  let pricingAge ← now.sub profile.pricingObservedAt
  refuseStale profile "pricing" profile.pricingObservedAt pricingAge maxPricing

def TermsPricingGate.allowed (profile : Observed) (context : Option Fields) (now : Option Moment)
    (clock : Moment) : Py Bool :=
  except ((fun _ => true) <$> g.check profile context now clock) (· = .policyViolation)
    fun _ => pure false

end Gate

section Staleness

variable {g : TermsPricingGate} {profile : Observed} {context : Fields} {now clock : Moment}
  {maxTerms maxPricing : Int}

def effective (g : TermsPricingGate) (provider key : String) : Json :=
  ((((g.providers.get? provider).bind (·.get? key)) <|> g.defaults.get? key).getD (.int 30))

/-- A field that is read is the one that is there, or its default. -/
theorem attrGet_eq_ok {j value default : Json} {key : String}
    (h : j.attrGet key default = .ok value) : value = (j.get? key).getD default := by
  cases j with
  | obj fields => exact (pure_eq_ok.mp h).symm
  | _ => cases h

theorem get?_orEmpty (value : Json) (key : String) : (orEmpty value).get? key = value.get? key := by
  rw [orEmpty]
  split
  · rfl
  · next hFalsy =>
      cases value with
      | obj fields =>
          cases fields with
          | nil => rfl
          | cons p rest => exact absurd rfl hFalsy
      | _ => rfl

/-- A threshold is the limit that holds for the provider, as an integer. -/
theorem threshold_eq_ok {provider key : String} {override : Json} {n : Int}
    (hOverride : g.providers.attrGet provider (.obj []) = .ok override)
    (h : g.threshold (orEmpty override) key = .ok n) :
    (effective g provider key).toInt = .ok n := by
  rw [TermsPricingGate.threshold] at h
  obtain ⟨fallback, hFallback, h⟩ := bind_eq_ok.mp h
  obtain ⟨value, hValue, h⟩ := bind_eq_ok.mp h
  have hGet : override.get? key = (g.providers.get? provider).bind (·.get? key) := by
    rw [attrGet_eq_ok hOverride]
    cases g.providers.get? provider with
    | none => rfl
    | some own => rfl
  rw [attrGet_eq_ok hValue, get?_orEmpty, hGet, attrGet_eq_ok hFallback] at h
  rw [effective]
  cases hOwn : (g.providers.get? provider).bind (·.get? key) with
  | none => rwa [hOwn] at h
  | some own => rwa [hOwn] at h

/-- The thresholds are the effective limits of the policy, read as whole numbers. -/
theorem thresholds_eq_ok {provider : String} (h : g.thresholds provider = .ok (maxTerms, maxPricing)) :
    (effective g provider "max_terms_age_days").toInt = .ok maxTerms ∧
      (effective g provider "max_pricing_age_days").toInt = .ok maxPricing := by
  rw [TermsPricingGate.thresholds] at h
  obtain ⟨override, hOverride, h⟩ := bind_eq_ok.mp h
  obtain ⟨terms, hTerms, h⟩ := bind_eq_ok.mp h
  obtain ⟨pricing, hPricing, h⟩ := bind_eq_ok.mp h
  obtain ⟨rfl, rfl⟩ := Prod.mk.inj (pure_eq_ok.mp h)
  exact ⟨threshold_eq_ok hOverride hTerms, threshold_eq_ok hOverride hPricing⟩

/-- A limit is passed once a whole day more has gone by. -/
theorem limit_lt_days {age limit : Int} : limit < days age ↔ (limit + 1) * dayMicros ≤ age := by
  rw [days, ← Int.add_one_le_iff]
  exact Int.le_ediv_iff_mul_le (by decide)

/-- Observations with zones, and a time with one. -/
structure Zoned (profile : Observed) (now : Moment) : Prop where
  now : now.aware = true
  terms : profile.termsObservedAt.aware = true
  pricing : profile.pricingObservedAt.aware = true

theorem Zoned.ages (h : Zoned profile now) :
    now.sub profile.termsObservedAt = .ok (now.micros - profile.termsObservedAt.micros) ∧
      now.sub profile.pricingObservedAt = .ok (now.micros - profile.pricingObservedAt.micros) := by
  rw [Moment.sub, if_pos (h.now.trans h.terms.symm), Moment.sub,
    if_pos (h.now.trans h.pricing.symm)]
  exact ⟨rfl, rfl⟩

def Refuses (outcome : Py Unit) : Prop := ∃ e, outcome = .error e ∧ e.kind = .policyViolation

/-- A guarded gate refuses by its guard, or by the rest. -/
theorem refuses_raiseIf {condition : Bool} {message : String} {rest : Unit → Py Unit} :
    Refuses (raiseIf condition .policyViolation message >>= rest) ↔
      condition = true ∨ Refuses (rest ()) := by
  cases condition with
  | true => exact ⟨fun _ => .inl rfl, fun _ => ⟨_, rfl, rfl⟩⟩
  | false =>
      show Refuses (rest ()) ↔ _
      simp

/-- The gate refuses an observation whose age has reached the day after its limit. -/
theorem check_refuses_iff (hZoned : Zoned profile now) (hContext : context ≠ [])
    (hThresholds : g.thresholds profile.provider = .ok (maxTerms, maxPricing)) :
    Refuses (g.check profile (some context) (some now) clock) ↔
      (maxTerms + 1) * dayMicros ≤ now.micros - profile.termsObservedAt.micros ∨
        (maxPricing + 1) * dayMicros ≤ now.micros - profile.pricingObservedAt.micros := by
  have hSome : context.isEmpty = false := by
    cases context with
    | nil => exact absurd rfl hContext
    | cons p rest => rfl
  have hLast : ∀ {condition : Bool} {message : String},
      Refuses (raiseIf condition .policyViolation message) ↔ condition = true := by
    intro condition message
    cases condition with
    | true => exact ⟨fun _ => rfl, fun _ => ⟨_, rfl, rfl⟩⟩
    | false =>
        constructor
        · rintro ⟨e, h, -⟩
          cases h
        · intro h
          cases h
  rw [TermsPricingGate.check, refuses_raiseIf]
  simp only [Option.getD_some, hSome, Bool.false_eq_true, false_or, hThresholds, hZoned.ages.1,
    hZoned.ages.2]
  show Refuses (refuseStale profile "terms" profile.termsObservedAt _ maxTerms >>= fun _ =>
    refuseStale profile "pricing" profile.pricingObservedAt _ maxPricing) ↔ _
  rw [refuseStale, refuses_raiseIf, refuseStale, hLast, decide_eq_true_iff, decide_eq_true_iff,
    limit_lt_days, limit_lt_days]

/-- A check that is reached past its thresholds and ages either accepts or refuses. -/
theorem check_accepts_iff (hZoned : Zoned profile now) (hContext : context ≠ [])
    (hThresholds : g.thresholds profile.provider = .ok (maxTerms, maxPricing)) :
    g.check profile (some context) (some now) clock = .ok () ↔
      ¬ Refuses (g.check profile (some context) (some now) clock) := by
  constructor
  · rintro hOk ⟨e, hError, -⟩
    rw [hOk] at hError
    cases hError
  · rw [check_refuses_iff hZoned hContext hThresholds, not_or, not_le, not_le]
    rintro ⟨hTerms, hPricing⟩
    have hSome : context.isEmpty = false := by
      cases context with
      | nil => exact absurd rfl hContext
      | cons p rest => rfl
    have hFresh : ∀ {age limit : Int}, age < (limit + 1) * dayMicros →
        decide (limit < days age) = false := fun h =>
      decide_eq_false fun hStale => absurd (limit_lt_days.mp hStale) (not_le.mpr h)
    simp only [TermsPricingGate.check, Option.getD_some, hSome, hThresholds, hZoned.ages.1,
      hZoned.ages.2, refuseStale, raiseIf, bind, Except.bind, pure, Except.pure, hFresh hTerms,
      hFresh hPricing, Bool.false_eq_true, ↓reduceIte]

/-- The observations of a profile are not earlier than those of another. -/
structure Later (profile other : Observed) : Prop where
  terms : profile.termsObservedAt.micros ≤ other.termsObservedAt.micros
  pricing : profile.pricingObservedAt.micros ≤ other.pricingObservedAt.micros

/-- The gate refuses at the exact limits unless an observation is in the day after its limit and
nothing else is too old; later observations and larger limits never turn it to refuse. -/
theorem staleness_strict_iff (hZoned : Zoned profile now) (hContext : context ≠ [])
    (hThresholds : g.thresholds profile.provider = .ok (maxTerms, maxPricing)) :
    ((effective g profile.provider "max_terms_age_days").toInt = .ok maxTerms ∧
      (effective g profile.provider "max_pricing_age_days").toInt = .ok maxPricing) ∧
    ((Refuses (g.check profile (some context) (some now) clock) ↔
        maxTerms * dayMicros < now.micros - profile.termsObservedAt.micros ∨
          maxPricing * dayMicros < now.micros - profile.pricingObservedAt.micros) ↔
      (maxTerms + 1) * dayMicros ≤ now.micros - profile.termsObservedAt.micros ∨
        (maxPricing + 1) * dayMicros ≤ now.micros - profile.pricingObservedAt.micros ∨
        (now.micros - profile.termsObservedAt.micros ≤ maxTerms * dayMicros ∧
          now.micros - profile.pricingObservedAt.micros ≤ maxPricing * dayMicros)) ∧
    ∀ (g' : TermsPricingGate) (other : Observed) (moreTerms morePricing : Int),
      Zoned other now → Later profile other →
      g'.thresholds other.provider = .ok (moreTerms, morePricing) → maxTerms ≤ moreTerms →
      maxPricing ≤ morePricing → g.check profile (some context) (some now) clock = .ok () →
        g'.check other (some context) (some now) clock = .ok () := by
  have hDay : 0 < dayMicros := by decide
  have hStep : ∀ limit : Int, limit * dayMicros < (limit + 1) * dayMicros := fun limit =>
    Int.mul_lt_mul_of_pos_right (by omega) hDay
  refine ⟨thresholds_eq_ok hThresholds, ?_, ?_⟩
  · rw [check_refuses_iff hZoned hContext hThresholds]
    have hTerms := hStep maxTerms
    have hPricing := hStep maxPricing
    omega
  · intro g' other moreTerms morePricing hOther hLater hMore hTerms hPricing hOk
    rw [check_accepts_iff hZoned hContext hThresholds,
      check_refuses_iff hZoned hContext hThresholds] at hOk
    rw [check_accepts_iff hOther hContext hMore, check_refuses_iff hOther hContext hMore]
    have hTermsLimit : (maxTerms + 1) * dayMicros ≤ (moreTerms + 1) * dayMicros :=
      Int.mul_le_mul_of_nonneg_right (by omega) hDay.le
    have hPricingLimit : (maxPricing + 1) * dayMicros ≤ (morePricing + 1) * dayMicros :=
      Int.mul_le_mul_of_nonneg_right (by omega) hDay.le
    have hTermsLater := hLater.terms
    have hPricingLater := hLater.pricing
    omega

/-- A policy without entries: every limit is thirty days. -/
def plainGate : TermsPricingGate := ⟨.obj [], .obj []⟩

def moment (micros : Int) : Moment := ⟨micros, true, "2026-01-01T00:00:00+00:00"⟩

/-- A profile whose terms were observed some time before the pricing. -/
def observedAt (micros : Int) : Observed := ⟨"fake", "fake-large-1", moment micros, moment 0⟩

theorem observedAt_zoned (micros later : Int) : Zoned (observedAt micros) (moment later) :=
  ⟨rfl, rfl, rfl⟩

/-- Without entries the limits are thirty days. -/
theorem plainGate_thresholds : plainGate.thresholds "fake" = .ok (30, 30) := rfl

def someContext : Fields := [("audit_id", .str "audit-1")]

theorem someContext_ne : someContext ≠ [] := List.cons_ne_nil _ _

/-- Terms that are thirty days and one second old are accepted. -/
theorem stale_second_accepted :
    ¬ ∀ (g : TermsPricingGate) (profile : Observed) (context : Fields) (now clock : Moment)
      (maxTerms maxPricing : Int), Zoned profile now → context ≠ [] →
        g.thresholds profile.provider = .ok (maxTerms, maxPricing) →
          (Refuses (g.check profile (some context) (some now) clock) ↔
            maxTerms * dayMicros < now.micros - profile.termsObservedAt.micros ∨
              maxPricing * dayMicros < now.micros - profile.pricingObservedAt.micros) := by
  intro h
  have hIff := h plainGate (observedAt (-1000000)) someContext (moment (30 * dayMicros)) (moment 0)
    30 30 (observedAt_zoned _ _) someContext_ne plainGate_thresholds
  have hRefused := hIff.mpr (.inl (by decide))
  rw [check_refuses_iff (observedAt_zoned _ _) someContext_ne plainGate_thresholds] at hRefused
  revert hRefused
  decide

/-- At the limit itself the gate is exact. -/
theorem limit_exact :
    Refuses (plainGate.check (observedAt 0) (some someContext) (some (moment (30 * dayMicros)))
      (moment 0)) ↔
      30 * dayMicros < (moment (30 * dayMicros)).micros - (observedAt 0).termsObservedAt.micros ∨
        30 * dayMicros <
          (moment (30 * dayMicros)).micros - (observedAt 0).pricingObservedAt.micros :=
  (staleness_strict_iff (observedAt_zoned _ _) someContext_ne plainGate_thresholds).2.1.mpr
    (.inr (.inr ⟨by decide, by decide⟩))

end Staleness
end L0vi0x.Models
