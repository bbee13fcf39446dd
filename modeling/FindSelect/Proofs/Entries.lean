import FindSelect.Entries
import Mathlib.Data.List.Induction
import Mathlib.Data.List.Nodup

/-!
# Entries after several writes

The entries after writing pairs in turn are some of these pairs, with every key once. If the keys of
the pairs are distinct, they are the pairs themselves. In general they are the only entries that
`Merges` the pairs: every key where it first came, with the value that came last. That the keys are
in the order in which they first came is also said by their places (`pairwise_keys_ofList`).
-/

namespace FindSelect.Entries

variable {κ α : Type} [DecidableEq κ]

/-- An entry after a write is the written one, or was there before. -/
theorem mem_put {k : κ} {v : α} {entries : List (κ × α)} {p : κ × α} (h : p ∈ put k v entries) :
    p = (k, v) ∨ p ∈ entries := by
  induction entries with
  | nil => simpa [put] using h
  | cons e rest ih =>
    obtain ⟨k', v'⟩ := e
    rw [put] at h
    split at h
    · rcases List.mem_cons.1 h with h | h
      · exact .inl h
      · exact .inr (List.mem_cons_of_mem _ h)
    · rcases List.mem_cons.1 h with h | h
      · exact .inr (h ▸ List.mem_cons_self)
      · exact (ih h).imp id (List.mem_cons_of_mem _)

/-- The pairs behind which others are written in turn. -/
theorem ofList_concat (pairs : List (κ × α)) (p : κ × α) :
    ofList (pairs ++ [p]) = put p.1 p.2 (ofList pairs) := by
  simp [ofList]

/-- Every entry is one of the pairs that were written. -/
theorem mem_of_mem_ofList {pairs : List (κ × α)} {p : κ × α} (h : p ∈ ofList pairs) :
    p ∈ pairs := by
  induction pairs using List.reverseRecOn with
  | nil => exact h
  | append_singleton pairs q ih =>
    rw [ofList_concat] at h
    rcases mem_put h with rfl | h
    · simp
    · exact List.mem_append_left _ (ih h)

/-- Every key is there once. -/
theorem nodup_keys_ofList (pairs : List (κ × α)) : ((ofList pairs).map Prod.fst).Nodup := by
  induction pairs using List.reverseRecOn with
  | nil => exact List.nodup_nil
  | append_singleton pairs q ih =>
    rw [ofList_concat, keys_put, ← List.concat_eq_append]
    split
    · exact ih
    · next h => exact List.Nodup.concat h ih

/-- A new key goes to the end. -/
theorem put_of_not_mem {k : κ} {entries : List (κ × α)} (h : k ∉ entries.map Prod.fst) (v : α) :
    put k v entries = entries ++ [(k, v)] := by
  induction entries with
  | nil => rfl
  | cons e rest ih =>
    obtain ⟨k', v'⟩ := e
    rw [List.map_cons, List.mem_cons, not_or] at h
    rw [put, if_neg (Ne.symm h.1), ih h.2]
    rfl

/-- Pairs with distinct keys are kept as they are. -/
theorem ofList_eq_self {pairs : List (κ × α)} (h : (pairs.map Prod.fst).Nodup) :
    ofList pairs = pairs := by
  induction pairs using List.reverseRecOn with
  | nil => rfl
  | append_singleton pairs q ih =>
    rw [List.map_append, List.map_singleton, ← List.concat_eq_append, List.nodup_concat] at h
    rw [ofList_concat, ih h.2, put_of_not_mem h.1]

/-- With every key once, a key has a value exactly if it is there with that value. -/
theorem get?_eq_some_iff {entries : List (κ × α)} (h : (entries.map Prod.fst).Nodup) {k : κ}
    {v : α} : get? k entries = some v ↔ (k, v) ∈ entries := by
  induction entries with
  | nil => simp [get?]
  | cons e rest ih =>
    obtain ⟨k', v'⟩ := e
    rw [List.map_cons, List.nodup_cons] at h
    rw [get?, List.mem_cons, Prod.mk.injEq]
    by_cases hk : k' = k
    · -- The key is not there a second time.
      have hrest : (k, v) ∉ rest := by
        intro hmem
        exact h.1 (List.mem_map.2 ⟨(k, v), hmem, hk.symm⟩)
      simp [hk, hrest, eq_comm]
    · rw [if_neg hk, ih h.2]
      simp [Ne.symm hk]

/-- The value at a key is that of the first entry with it. -/
theorem get?_eq_find? (k : κ) (entries : List (κ × α)) :
    get? k entries = (entries.find? fun p => p.1 = k).map Prod.snd := by
  induction entries with
  | nil => rfl
  | cons p rest ih =>
    by_cases h : p.1 = k
    · simp [get?, h]
    · simp [get?, h, ih]

/-- With every key once, the value at a key does not depend on the order of the entries. -/
theorem get?_perm {entries entries' : List (κ × α)} (h : (entries.map Prod.fst).Nodup)
    (hperm : entries.Perm entries') (k : κ) : get? k entries' = get? k entries := by
  have h' : (entries'.map Prod.fst).Nodup := (hperm.map Prod.fst).nodup_iff.1 h
  refine Option.ext fun v => ?_
  rw [get?_eq_some_iff h', get?_eq_some_iff h, hperm.mem_iff]

/-! ## Repeated keys -/

/-- Whether entries are what pairs come to when repeated keys fall together: every key once, where
it first comes among the pairs, with the value that comes last. -/
def Merges (pairs entries : List (κ × α)) : Prop :=
  entries.map Prod.fst = (pairs.map Prod.fst).eraseDups ∧
    ∀ k, get? k entries = get? k pairs.reverse

/-- Pairs merge into the entries after writing them. -/
theorem merges_ofList (pairs : List (κ × α)) : Merges pairs (ofList pairs) := by
  induction pairs using List.reverseRecOn with
  | nil => exact ⟨rfl, fun k => rfl⟩
  | append_singleton pairs p ih =>
    obtain ⟨hkeys, hget⟩ := ih
    rw [ofList_concat]
    constructor
    · rw [keys_put, hkeys, List.map_append, List.map_singleton, List.eraseDups_append]
      by_cases hmem : p.1 ∈ pairs.map Prod.fst
      · rw [if_pos (List.mem_eraseDups.2 hmem)]
        simp [List.removeAll, hmem]
      · rw [if_neg (mt List.mem_eraseDups.1 hmem)]
        simp [List.removeAll, hmem, List.eraseDups_cons]
    · intro k
      rw [get?_put, hget, List.reverse_append, List.reverse_singleton, List.singleton_append, get?]
      simp only [eq_comm]

/-- The keys are those of the pairs. -/
theorem mem_keys_ofList {pairs : List (κ × α)} {k : κ} :
    k ∈ (ofList pairs).map Prod.fst ↔ k ∈ pairs.map Prod.fst := by
  rw [(merges_ofList pairs).1, List.mem_eraseDups]

/-- The keys are in the order in which they first came. -/
theorem pairwise_keys_ofList (pairs : List (κ × α)) :
    ((ofList pairs).map Prod.fst).Pairwise fun k k' =>
      (pairs.map Prod.fst).idxOf k < (pairs.map Prod.fst).idxOf k' := by
  induction pairs using List.reverseRecOn with
  | nil => exact List.Pairwise.nil
  | append_singleton pairs p ih =>
    -- A key that came before is still where it was.
    have hold : ((ofList pairs).map Prod.fst).Pairwise fun k k' =>
        ((pairs ++ [p]).map Prod.fst).idxOf k < ((pairs ++ [p]).map Prod.fst).idxOf k' := by
      refine ih.imp_of_mem fun hk hk' hlt => ?_
      rwa [List.map_append, List.idxOf_append_of_mem (mem_keys_ofList.1 hk),
        List.idxOf_append_of_mem (mem_keys_ofList.1 hk')]
    rw [ofList_concat, keys_put]
    split
    · exact hold
    · next hnew =>
      rw [List.pairwise_append]
      refine ⟨hold, List.pairwise_singleton _ _, fun k hk k' hk' => ?_⟩
      obtain rfl := List.mem_singleton.1 hk'
      rw [List.map_append, List.idxOf_append_of_mem (mem_keys_ofList.1 hk),
        List.idxOf_append_of_notMem (mt mem_keys_ofList.2 hnew)]
      exact Nat.lt_of_lt_of_le (List.idxOf_lt_length_of_mem (mem_keys_ofList.1 hk))
        (Nat.le_add_right _ _)

/-- There is no value at a key that is not there. -/
theorem get?_of_not_mem {entries : List (κ × α)} {k : κ} (h : k ∉ entries.map Prod.fst) :
    get? k entries = none := by
  induction entries with
  | nil => rfl
  | cons e rest ih =>
    rw [List.map_cons, List.mem_cons, not_or] at h
    rw [get?, if_neg (Ne.symm h.1), ih h.2]

/-- Entries are determined by their keys in order and the value at each of them. -/
theorem eq_of_get?_eq {entries entries' : List (κ × α)}
    (hkeys : entries.map Prod.fst = entries'.map Prod.fst) (hnodup : (entries.map Prod.fst).Nodup)
    (hget : ∀ k, get? k entries = get? k entries') : entries = entries' := by
  induction entries generalizing entries' with
  | nil => exact (List.map_eq_nil_iff.1 hkeys.symm).symm
  | cons e rest ih =>
    cases entries' with
    | nil => exact absurd hkeys (by simp)
    | cons e' rest' =>
      obtain ⟨k, v⟩ := e
      obtain ⟨k', v'⟩ := e'
      rw [List.map_cons, List.map_cons, List.cons.injEq] at hkeys
      obtain ⟨rfl, hkeys⟩ : k = k' ∧ rest.map Prod.fst = rest'.map Prod.fst := hkeys
      rw [List.map_cons, List.nodup_cons] at hnodup
      have hfirst := hget k
      rw [get?, get?, if_pos rfl, if_pos rfl, Option.some.injEq] at hfirst
      have hrest : rest = rest' := by
        refine ih hkeys hnodup.2 fun j => ?_
        by_cases hj : k = j
        · -- The first key does not come again.
          subst hj
          rw [get?_of_not_mem hnodup.1, get?_of_not_mem (hkeys ▸ hnodup.1)]
        · simpa only [get?, if_neg hj] using hget j
      rw [hfirst, hrest]

/-- Pairs merge into one list of entries only. -/
theorem merges_iff {pairs entries : List (κ × α)} :
    Merges pairs entries ↔ entries = ofList pairs := by
  constructor
  · intro h
    have hofList := merges_ofList pairs
    have hkeys := hofList.1.trans h.1.symm
    exact (eq_of_get?_eq hkeys (nodup_keys_ofList pairs) fun k =>
      (hofList.2 k).trans (h.2 k).symm).symm
  · rintro rfl
    exact merges_ofList pairs

end FindSelect.Entries
