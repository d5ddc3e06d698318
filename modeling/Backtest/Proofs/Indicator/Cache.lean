/-
The cache against the indicators themselves: after any requests over the closes of one series it
holds the values of exactly the indicators asked for, as computed afresh from the closes
(`IndicatorCache.Over`), and the requests fail only if one of those indicators has no values.
-/
import Backtest.Indicator.Cache
import Backtest.Proofs.Chain
import Backtest.Rule.Predicate

namespace Backtest

namespace Indicator

/-- One value per close, defined or not. -/
theorem length_values {i : Indicator} {closes : List Decimal} {values : Values}
    (h : i.values closes = .ok values) : values.length = closes.length := by
  cases i with
  | price => cases h; exact List.length_map _
  | sma period =>
    change smaValues period closes = _ at h
    unfold smaValues at h
    split at h
    · cases h; exact length_undefined _
    · exact length_scan h
  | ema period =>
    change emaValues period closes = _ at h
    unfold emaValues at h
    split at h
    · cases h; exact length_undefined _
    · obtain ⟨_, -, h⟩ := bind_eq_ok_iff.1 h
      exact length_scan h
  | rsi period =>
    change rsiValues period closes = _ at h
    unfold rsiValues at h
    split at h
    · cases h; exact length_undefined _
    · exact length_scan h

/-- The values of all indicators, each computed from the closes when it is looked up. -/
def fresh (closes : List Decimal) : Lookup := fun i index =>
  match i.values closes with
  | .ok values => values.at? index
  | .error _ => none

theorem fresh_of_values {i : Indicator} {closes : List Decimal} {values : Values}
    (h : i.values closes = .ok values) (index : Nat) : fresh closes i index = values.at? index := by
  unfold fresh
  rw [h]

theorem fresh_of_length_le (i : Indicator) {closes : List Decimal} {index : Nat}
    (h : closes.length ≤ index) : fresh closes i index = none := by
  unfold fresh
  split
  · rename_i values hv
    exact Values.at?_of_length_le (by rw [length_values hv]; exact h)
  · rfl

end Indicator

namespace IndicatorCache

/-- A request is for something known and changes nothing, or adds what it asks for. -/
theorem ensure_cases {cache cache' : IndicatorCache} {closes : List Decimal} {i : Indicator}
    (h : cache.ensure closes i = .ok cache') :
    (∃ values, cache.find? i = some values ∧ cache' = cache) ∨
      ∃ values, cache.find? i = none ∧ i.values closes = .ok values ∧
        cache' = ⟨cache.entries ++ [(i, values)]⟩ := by
  rcases hf : cache.find? i with _ | values
  · unfold ensure at h
    rw [hf] at h
    obtain ⟨values, hv, h⟩ := bind_eq_ok_iff.1 h
    exact .inr ⟨values, rfl, hv, (pure_eq_ok_iff.1 h).symm⟩
  · rw [ensure_of_find? hf] at h
    exact .inl ⟨values, rfl, (Except.ok.inj h).symm⟩

/-- A request is answered if the indicator is known or has values over the closes. -/
theorem exists_ensure {cache : IndicatorCache} (closes : List Decimal) {i : Indicator}
    (h : cache.find? i = none → ∃ values, i.values closes = .ok values) :
    ∃ cache', cache.ensure closes i = .ok cache' := by
  rcases hf : cache.find? i with _ | values
  · obtain ⟨values, hv⟩ := h hf
    exact ⟨_, ensure_of_values hf hv⟩
  · exact ⟨_, ensure_of_find? hf closes⟩

/-- The cache holds the values over the closes of the indicators asked for, and no others. -/
structure Over (cache : IndicatorCache) (closes : List Decimal) (asked : List Indicator) : Prop where
  known : ∀ i ∈ asked, ∃ values, i.values closes = .ok values ∧ cache.find? i = some values
  only : ∀ i, i ∉ asked → cache.find? i = none

theorem over_empty (closes : List Decimal) : empty.Over closes [] :=
  ⟨fun _ hi => absurd hi List.not_mem_nil, fun i _ => find?_empty i⟩

theorem ensure_over {cache cache' : IndicatorCache} {closes : List Decimal} {asked : List Indicator}
    {i : Indicator} (h : cache.Over closes asked) (he : cache.ensure closes i = .ok cache') :
    cache'.Over closes (i :: asked) := by
  rcases ensure_cases he with ⟨values, known, rfl⟩ | ⟨values, unknown, hv, rfl⟩
  · -- what is known has been asked for
    have hi : i ∈ asked := Decidable.by_contra fun hi => by
      rw [h.only i hi] at known
      cases known
    refine ⟨fun j hj => ?_, fun j hj => h.only j (List.not_mem_of_not_mem_cons hj)⟩
    rcases List.mem_cons.1 hj with rfl | hj
    · exact h.known j hi
    · exact h.known j hj
  · refine ⟨fun j hj => ?_, fun j hj => ?_⟩
    · rw [find?_append]
      rcases List.mem_cons.1 hj with rfl | hj
      · exact ⟨values, hv, by rw [unknown, if_pos rfl]; rfl⟩
      · obtain ⟨values', hv', hf'⟩ := h.known j hj
        exact ⟨values', hv', by rw [hf']; rfl⟩
    · have hne := List.ne_of_not_mem_cons hj
      rw [find?_append, h.only j (List.not_mem_of_not_mem_cons hj), if_neg (Ne.symm hne)]
      rfl

theorem ensureAll_over {closes : List Decimal} :
    ∀ {is asked : List Indicator} {cache cache' : IndicatorCache}, cache.Over closes asked →
      cache.ensureAll closes is = .ok cache' → cache'.Over closes (is.reverse ++ asked)
  | [], _, _, _, h, he => by cases he; exact h
  | i :: is, asked, _, _, h, he => by
    obtain ⟨_, hi, he⟩ := bind_eq_ok_iff.1 he
    have ih := ensureAll_over (ensure_over h hi) he
    rw [List.reverse_cons, List.append_assoc, List.singleton_append]
    exact ih

/-- Requests succeed if every indicator asked for has values. -/
theorem exists_ensureAll {closes : List Decimal} :
    ∀ {is : List Indicator} (cache : IndicatorCache),
      (∀ i ∈ is, ∃ values, i.values closes = .ok values) →
      ∃ cache', cache.ensureAll closes is = .ok cache'
  | [], cache, _ => ⟨cache, rfl⟩
  | i :: is, cache, h => by
    obtain ⟨cache₁, h₁⟩ := exists_ensure closes fun _ => h i (List.mem_cons_self ..)
    obtain ⟨cache₂, h₂⟩ := exists_ensureAll cache₁ fun j hj => h j (List.mem_cons_of_mem _ hj)
    exact ⟨cache₂, bind_eq_ok_iff.2 ⟨cache₁, h₁, h₂⟩⟩

/-- The cache of a list of requests holds exactly the indicators in it. -/
theorem over_of_ensureAll {closes : List Decimal} {is : List Indicator} {cache : IndicatorCache}
    (h : empty.ensureAll closes is = .ok cache) : cache.Over closes is := by
  obtain ⟨known, only⟩ := ensureAll_over (over_empty closes) h
  simp only [List.append_nil, List.mem_reverse] at known only
  exact ⟨known, only⟩

/-- A cached value is the one computed afresh. -/
theorem Over.value?_eq {cache : IndicatorCache} {closes : List Decimal} {asked : List Indicator}
    (h : cache.Over closes asked) {i : Indicator} (hi : i ∈ asked) (index : Nat) :
    cache.value? i index = Indicator.fresh closes i index := by
  obtain ⟨values, hv, hf⟩ := h.known i hi
  unfold value?
  rw [hf, Option.bind_some, Indicator.fresh_of_values hv]

end IndicatorCache
end Backtest
