/-
Requests to a cache over several series. What a cache has for an indicator is settled by the first
request for it, whatever is asked for before and after (`Remembers`). Its list of indicators ascends
strictly, as no two of them have the same text, and there is only one such list. So caches that were
asked for the same indicators over one series show the same, in whatever order and however often they
were asked.
-/
import Backtest.Proofs.Indicator.Cache
import Backtest.Proofs.Rule.Text
import Mathlib.Data.Finset.Card

namespace Backtest

/-- An indicator that is asked for over the closes of a series. -/
structure IndicatorRequest where
  indicator : Indicator
  closes : List Decimal

/-- The closes over which the indicator is asked for first. -/
def firstCloses? (requests : List IndicatorRequest) (i : Indicator) : Option (List Decimal) :=
  (requests.find? (·.indicator = i)).map (·.closes)

theorem firstCloses?_eq_none_iff {requests : List IndicatorRequest} {i : Indicator} :
    firstCloses? requests i = none ↔ ∀ request ∈ requests, request.indicator ≠ i := by
  simp [firstCloses?]

/-- A request at the end counts after the earlier ones. -/
theorem firstCloses?_concat (requests : List IndicatorRequest) (request : IndicatorRequest)
    (i : Indicator) : firstCloses? (requests ++ [request]) i =
      (firstCloses? requests i).or (if request.indicator = i then some request.closes else none) := by
  unfold firstCloses?
  rw [List.find?_append]
  cases requests.find? (·.indicator = i) with
  | some r => rfl
  | none => by_cases h : request.indicator = i <;> simp [h]

/-- Later requests change nothing about the first one. -/
theorem firstCloses?_append {requests later : List IndicatorRequest} {i : Indicator}
    {closes : List Decimal} (h : firstCloses? requests i = some closes) :
    firstCloses? (requests ++ later) i = some closes := by
  unfold firstCloses? at h ⊢
  obtain ⟨request, hr, rfl⟩ := Option.map_eq_some_iff.1 h
  rw [List.find?_append, hr]
  rfl

/-- Where all requests are over one series, an indicator asked for is asked for over its closes. -/
theorem firstCloses?_of_one_series {requests : List IndicatorRequest} {closes : List Decimal}
    (one : ∀ request ∈ requests, request.closes = closes) (i : Indicator) :
    firstCloses? requests i =
      if ∃ request ∈ requests, request.indicator = i then some closes else none := by
  rcases h : firstCloses? requests i with _ | found
  · rw [firstCloses?_eq_none_iff] at h
    rw [if_neg]
    rintro ⟨request, hr, same⟩
    exact h request hr same
  · obtain ⟨request, hr, rfl⟩ := Option.map_eq_some_iff.1 h
    have mem := List.mem_of_find?_eq_some hr
    rw [if_pos ⟨request, mem, by simpa using List.find?_some hr⟩, one request mem]

namespace IndicatorCache

/-- Several requests, one after the other. -/
def ensureEach (cache : IndicatorCache) : List IndicatorRequest → Except Fault IndicatorCache
  | [] => .ok cache
  | request :: rest => do
    let cache ← cache.ensure request.closes request.indicator
    cache.ensureEach rest

theorem find?_eq_none_iff {cache : IndicatorCache} {i : Indicator} :
    cache.find? i = none ↔ i ∉ cache.entries.map (·.1) := by
  unfold find?
  rw [Option.map_eq_none_iff, List.find?_eq_none, List.mem_map]
  constructor
  · rintro absent ⟨entry, mem, same⟩
    exact absent entry mem (decide_eq_true same)
  · intro absent entry mem same
    exact absent ⟨entry, mem, of_decide_eq_true same⟩

/-! ## What is settled by the first request -/

/-- For each indicator asked for the cache has its values over the closes of the first request, and
it has nothing for any other indicator. -/
structure Remembers (cache : IndicatorCache) (requests : List IndicatorRequest) : Prop where
  first : ∀ i, Option.Rel (fun closes values => i.values closes = .ok values)
    (firstCloses? requests i) (cache.find? i)
  distinct : (cache.entries.map (·.1)).Nodup

namespace Remembers

variable {cache cache' : IndicatorCache} {requests : List IndicatorRequest} {i : Indicator}

theorem empty : IndicatorCache.empty.Remembers [] :=
  ⟨fun _ => .none, List.nodup_nil⟩

theorem exists_values (h : cache.Remembers requests) {closes : List Decimal}
    (asked : firstCloses? requests i = some closes) :
    ∃ values, i.values closes = .ok values ∧ cache.find? i = some values := by
  have first := h.first i
  rw [asked] at first
  generalize cache.find? i = found at first ⊢
  cases first with
  | some hv => exact ⟨_, hv, rfl⟩

theorem find?_eq_none_iff (h : cache.Remembers requests) :
    cache.find? i = none ↔ firstCloses? requests i = none := by
  have first := h.first i
  generalize firstCloses? requests i = asked at first ⊢
  generalize cache.find? i = found at first ⊢
  cases first <;> simp

/-- Exactly the indicators asked for are in the cache. -/
theorem mem_keys_iff (h : cache.Remembers requests) :
    i ∈ cache.entries.map (·.1) ↔ ∃ request ∈ requests, request.indicator = i := by
  rw [← not_iff_not, ← IndicatorCache.find?_eq_none_iff, h.find?_eq_none_iff,
    firstCloses?_eq_none_iff]
  simp only [not_exists, not_and, ne_eq]

theorem ensure {request : IndicatorRequest} (h : cache.Remembers requests)
    (he : cache.ensure request.closes request.indicator = .ok cache') :
    cache'.Remembers (requests ++ [request]) := by
  rcases ensure_cases he with ⟨values, known, rfl⟩ | ⟨values, unknown, hv, rfl⟩
  · -- what is known has been asked for, so the request is not the first one
    refine ⟨fun j => ?_, h.distinct⟩
    rw [firstCloses?_concat]
    by_cases same : request.indicator = j
    · subst same
      have asked : firstCloses? requests request.indicator ≠ none := by
        rw [ne_eq, ← h.find?_eq_none_iff, known]
        exact nofun
      obtain ⟨closes, hc⟩ := Option.ne_none_iff_exists'.1 asked
      rw [hc, Option.some_or, ← hc]
      exact h.first request.indicator
    · rw [if_neg same, Option.or_none]
      exact h.first j
  · refine ⟨fun j => ?_, ?_⟩
    · rw [firstCloses?_concat, find?_append]
      by_cases same : request.indicator = j
      · subst same
        rw [h.find?_eq_none_iff.1 unknown, unknown, Option.none_or, Option.none_or, if_pos rfl,
          if_pos rfl]
        exact .some hv
      · rw [if_neg same, if_neg same, Option.or_none, Option.or_none]
        exact h.first j
    · rw [List.map_append, List.map_singleton, ← List.concat_eq_append, List.nodup_concat]
      exact ⟨IndicatorCache.find?_eq_none_iff.1 unknown, h.distinct⟩

theorem ensureEach : ∀ {later requests : List IndicatorRequest} {cache cache' : IndicatorCache},
    cache.Remembers requests → cache.ensureEach later = .ok cache' →
      cache'.Remembers (requests ++ later)
  | [], requests, _, _, h, he => by
    cases he
    rw [List.append_nil]
    exact h
  | request :: rest, requests, _, _, h, he => by
    obtain ⟨_, first, later⟩ := bind_eq_ok_iff.1 he
    rw [List.append_cons]
    exact ensureEach (h.ensure first) later

/-- Requests are answered if every indicator has values over the closes of its first request. -/
theorem exists_ensureEach : ∀ {later requests : List IndicatorRequest} {cache : IndicatorCache},
    cache.Remembers requests →
      (∀ i closes, firstCloses? (requests ++ later) i = some closes →
        ∃ values, i.values closes = .ok values) →
      ∃ cache', cache.ensureEach later = .ok cache'
  | [], _, cache, _, _ => ⟨cache, rfl⟩
  | request :: rest, requests, cache, h, fits => by
    rw [List.append_cons] at fits
    obtain ⟨cache₁, h₁⟩ := exists_ensure request.closes fun unknown => by
      have asked : firstCloses? (requests ++ [request]) request.indicator =
          some request.closes := by
        rw [firstCloses?_concat, h.find?_eq_none_iff.1 unknown, Option.none_or, if_pos rfl]
      exact fits _ _ (firstCloses?_append asked)
    obtain ⟨cache₂, h₂⟩ := exists_ensureEach (h.ensure h₁) fits
    exact ⟨cache₂, bind_eq_ok_iff.2 ⟨cache₁, h₁, h₂⟩⟩

end Remembers

/-! ## The indicators in the order of their texts -/

theorem perm_indicators (cache : IndicatorCache) :
    cache.indicators.Perm (cache.entries.map (·.1)) :=
  List.mergeSort_perm _ _

theorem ascending_indicators {cache : IndicatorCache}
    (distinct : (cache.entries.map (·.1)).Nodup) :
    cache.indicators.Pairwise fun i j => i.text < j.text := by
  have trans : ∀ i j k : Indicator, decide (i.text ≤ j.text) = true →
      decide (j.text ≤ k.text) = true → decide (i.text ≤ k.text) = true := by
    intro i j k h h'
    exact decide_eq_true (String.le_trans (of_decide_eq_true h) (of_decide_eq_true h'))
  have total : ∀ i j : Indicator, (decide (i.text ≤ j.text) || decide (j.text ≤ i.text)) = true := by
    intro i j
    simpa using String.le_total i.text j.text
  have sorted := List.pairwise_mergeSort trans total (cache.entries.map (·.1))
  have nodup := cache.perm_indicators.nodup_iff.2 distinct
  refine sorted.imp₂ (fun i j le ne => ?_) nodup
  apply String.not_le.1
  intro ge
  exact ne (Indicator.text_injective (String.le_antisymm (of_decide_eq_true le) ge))

/-- There is one strictly ascending list of given indicators. -/
theorem eq_of_ascending {is js : List Indicator} (hi : is.Pairwise fun i j => i.text < j.text)
    (hj : js.Pairwise fun i j => i.text < j.text) (same : ∀ i, i ∈ is ↔ i ∈ js) : is = js := by
  have nodup {ks : List Indicator} (hk : ks.Pairwise fun i j => i.text < j.text) : ks.Nodup :=
    hk.imp fun lt => ne_of_apply_ne Indicator.text (String.ne_of_lt lt)
  exact List.Perm.eq_of_pairwise (fun _ _ _ _ lt gt => absurd gt (String.lt_asymm lt)) hi hj
    ((List.perm_ext_iff_of_nodup (nodup hi) (nodup hj)).2 same)

/-! ## What a cache shows -/

/-- What a cache shows after requests. -/
structure Shows (cache : IndicatorCache) (requests : List IndicatorRequest) : Prop where
  value : ∀ i closes, firstCloses? requests i = some closes →
    ∃ values, i.values closes = .ok values ∧ ∀ index, cache.value? i index = values.at? index
  pastEnd : ∀ i closes, firstCloses? requests i = some closes →
    ∀ index, closes.length ≤ index → cache.value? i index = none
  unasked : ∀ i, (∀ request ∈ requests, request.indicator ≠ i) →
    ∀ index, cache.value? i index = none
  size : cache.size = (requests.map (·.indicator)).toFinset.card
  listed : ∀ i, i ∈ cache.indicators ↔ ∃ request ∈ requests, request.indicator = i
  once : cache.indicators.Nodup
  ascending : cache.indicators.Pairwise fun i j => i.text < j.text

theorem Remembers.shows {cache : IndicatorCache} {requests : List IndicatorRequest}
    (h : cache.Remembers requests) : cache.Shows requests where
  value i closes asked := by
    obtain ⟨values, hv, hf⟩ := h.exists_values asked
    exact ⟨values, hv, fun index => by rw [value?, hf, Option.bind_some]⟩
  pastEnd i closes asked index past := by
    obtain ⟨values, hv, hf⟩ := h.exists_values asked
    rw [value?, hf, Option.bind_some]
    exact Indicator.Values.at?_of_length_le (Indicator.length_values hv ▸ past)
  unasked i absent index := by
    rw [value?, h.find?_eq_none_iff.2 (firstCloses?_eq_none_iff.2 absent), Option.bind_none]
  size := by
    have same : (cache.entries.map (·.1)).toFinset = (requests.map (·.indicator)).toFinset := by
      ext i
      rw [List.mem_toFinset, List.mem_toFinset, h.mem_keys_iff, List.mem_map]
    rw [← same, List.toFinset_card_of_nodup h.distinct, List.length_map, IndicatorCache.size]
  listed i := by rw [cache.perm_indicators.mem_iff, h.mem_keys_iff]
  once := cache.perm_indicators.nodup_iff.2 h.distinct
  ascending := ascending_indicators h.distinct

/-- Two caches show the same values, number and list of indicators. -/
structure Agrees (cache cache' : IndicatorCache) : Prop where
  value : ∀ i index, cache.value? i index = cache'.value? i index
  size : cache.size = cache'.size
  indicators : cache.indicators = cache'.indicators

/-- Caches agree if for every indicator their first requests are over the same closes. -/
theorem Remembers.agrees {cache cache' : IndicatorCache} {requests others : List IndicatorRequest}
    (h : cache.Remembers requests) (h' : cache'.Remembers others)
    (same : firstCloses? requests = firstCloses? others) : cache.Agrees cache' := by
  have asked (i : Indicator) : (∃ request ∈ requests, request.indicator = i) ↔
      ∃ request ∈ others, request.indicator = i := by
    rw [← h.mem_keys_iff, ← h'.mem_keys_iff, ← not_iff_not, ← IndicatorCache.find?_eq_none_iff,
      ← IndicatorCache.find?_eq_none_iff, h.find?_eq_none_iff, h'.find?_eq_none_iff, same]
  refine ⟨fun i index => ?_, ?_, ?_⟩
  · rcases hc : firstCloses? requests i with _ | closes
    · rw [value?, value?, h.find?_eq_none_iff.2 hc, h'.find?_eq_none_iff.2 (same ▸ hc)]
    · obtain ⟨values, hv, hf⟩ := h.exists_values hc
      obtain ⟨values', hv', hf'⟩ := h'.exists_values (same ▸ hc)
      cases hv.symm.trans hv'
      rw [value?, value?, hf, hf']
  · rw [h.shows.size, h'.shows.size]
    congr 1
    ext i
    simpa using asked i
  · exact eq_of_ascending h.shows.ascending h'.shows.ascending fun i => by
      rw [h.shows.listed, h'.shows.listed, asked]

/-- Requests are answered exactly if every indicator has values over the closes of its first request.
The cache then shows those values, and its list of indicators has each of them once. If all requests
are over one series, any others for the same indicators over it are answered too and give a cache that
agrees. -/
theorem shows_first_requests (requests : List IndicatorRequest) :
    ((∃ cache, empty.ensureEach requests = .ok cache) ↔
      ∀ i closes, firstCloses? requests i = some closes → ∃ values, i.values closes = .ok values) ∧
    ∀ cache, empty.ensureEach requests = .ok cache → cache.Shows requests ∧
      ∀ closes others, (∀ request ∈ requests, request.closes = closes) →
        (∀ request ∈ others, request.closes = closes) →
        (∀ i, (∃ request ∈ requests, request.indicator = i) ↔
          ∃ request ∈ others, request.indicator = i) →
        ∃ cache', empty.ensureEach others = .ok cache' ∧ cache'.Agrees cache := by
  have remembers {requests : List IndicatorRequest} {cache : IndicatorCache}
      (h : empty.ensureEach requests = .ok cache) : cache.Remembers requests :=
    Remembers.empty.ensureEach h
  have values {requests : List IndicatorRequest} {cache : IndicatorCache}
      (h : empty.ensureEach requests = .ok cache) (i : Indicator) (closes : List Decimal)
      (asked : firstCloses? requests i = some closes) : ∃ values, i.values closes = .ok values := by
    obtain ⟨values, hv, -⟩ := (remembers h).exists_values asked
    exact ⟨values, hv⟩
  refine ⟨⟨fun ⟨_, h⟩ => values h, Remembers.empty.exists_ensureEach⟩, fun cache h => ?_⟩
  refine ⟨(remembers h).shows, fun closes others one one' same => ?_⟩
  have first : firstCloses? others = firstCloses? requests := by
    funext i
    rw [firstCloses?_of_one_series one, firstCloses?_of_one_series one']
    exact if_congr (same i).symm rfl rfl
  obtain ⟨cache', h'⟩ : ∃ cache', empty.ensureEach others = .ok cache' :=
    Remembers.empty.exists_ensureEach (first ▸ values h)
  exact ⟨cache', h', (remembers h').agrees (remembers h) first⟩

/-- A second series does not show where the first one had the indicator, and requests in another order
give the same list. -/
theorem shows_first_requests_of_two_series :
    let short : List Decimal := [.one, .hundred]
    let long : List Decimal := [.hundred, .hundred, .one]
    let requests : List IndicatorRequest := [⟨.sma 2, short⟩, ⟨.price, long⟩, ⟨.sma 2, long⟩]
    let once : List IndicatorRequest := [⟨.sma 2, long⟩, ⟨.price, long⟩]
    let again : List IndicatorRequest := [⟨.price, long⟩, ⟨.sma 2, long⟩, ⟨.price, long⟩]
    ∃ cache first second, empty.ensureEach requests = .ok cache ∧ cache.Shows requests ∧
      cache.value? (.sma 2) 2 = none ∧ cache.size = 2 ∧ cache.indicators = [.price, .sma 2] ∧
      empty.ensureEach once = .ok first ∧ empty.ensureEach again = .ok second ∧
      first.entries.map (·.1) ≠ second.entries.map (·.1) ∧ second.Agrees first := by
  intro short long requests once again
  have keys {r : List IndicatorRequest} {k : List Indicator}
      (h : (empty.ensureEach r).toOption.map (·.entries.map (·.1)) = some k) :
      ∃ cache, empty.ensureEach r = .ok cache ∧ cache.entries.map (·.1) = k :=
    exists_of_toOption_map h
  obtain ⟨cache, h, -⟩ := keys (r := requests) (k := [.sma 2, .price]) (by decide +kernel)
  obtain ⟨first, h₁, keys₁⟩ := keys (r := once) (k := [.sma 2, .price]) (by decide +kernel)
  obtain ⟨second, h₂, keys₂⟩ := keys (r := again) (k := [.price, .sma 2]) (by decide +kernel)
  have shows := ((shows_first_requests requests).2 cache h).1
  have list : cache.indicators = [.price, .sma 2] :=
    eq_of_ascending shows.ascending (by decide +kernel) fun i => by
      rw [shows.listed]
      simpa [requests, eq_comm] using Or.inr
  obtain ⟨other, h₂', agrees⟩ := ((shows_first_requests once).2 first h₁).2 long again
    (by simp [once]) (by simp [again]) fun i => by
      simp [once, again, or_comm]
  cases h₂.symm.trans h₂'
  refine ⟨cache, first, second, h, shows, ?_, shows.size.trans (by decide +kernel), list, h₁, h₂, ?_,
    agrees⟩
  · exact shows.pastEnd (.sma 2) short rfl 2 (by decide)
  · rw [keys₁, keys₂]
    decide

end IndicatorCache
end Backtest
