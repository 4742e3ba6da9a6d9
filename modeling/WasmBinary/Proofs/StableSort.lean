/-!
# Stable sorting by keys

A stable sort by keys is determined by what it leaves alone: the entries with one key stay in the
order in which they were.
-/

namespace WasmBinary

section SortByKey

variable {α : Type} {key : α → Nat} {entries others : List α}

theorem key_trans (key : α → Nat) (a b c : α) (hab : decide (key a ≤ key b) = true)
    (hbc : decide (key b ≤ key c) = true) : decide (key a ≤ key c) = true := by
  rw [decide_eq_true_iff] at hab hbc ⊢
  exact Nat.le_trans hab hbc

theorem key_total (key : α → Nat) (a b : α) :
    (decide (key a ≤ key b) || decide (key b ≤ key a)) = true := by
  simpa using Nat.le_total (key a) (key b)

theorem pairwise_mergeSort_key (key : α → Nat) (entries : List α) :
    (entries.mergeSort fun a b ↦ key a ≤ key b).Pairwise fun a b ↦ key a ≤ key b := by
  have h := List.pairwise_mergeSort (key_trans key) (key_total key) entries
  exact h.imp of_decide_eq_true

def withKey (key : α → Nat) (k : Nat) (entries : List α) : List α :=
  entries.filter fun entry ↦ key entry = k

@[simp] theorem mem_withKey {k : Nat} {entry : α} :
    entry ∈ withKey key k entries ↔ entry ∈ entries ∧ key entry = k := by
  simp [withKey]

/-- Sorting keeps the order of entries with the same key. -/
theorem withKey_mergeSort (key : α → Nat) (k : Nat) (entries : List α) :
    withKey key k (entries.mergeSort fun a b ↦ key a ≤ key b) = withKey key k entries := by
  have hties : (withKey key k entries).Pairwise fun a b ↦ decide (key a ≤ key b) = true := by
    apply List.pairwise_of_forall_mem_list
    intro a ha b hb
    have hkeys : key a = key b := (mem_withKey.1 ha).2.trans (mem_withKey.1 hb).2.symm
    exact decide_eq_true (Nat.le_of_eq hkeys)
  have hsub : (withKey key k entries).Sublist (entries.mergeSort fun a b ↦ key a ≤ key b) :=
    List.sublist_mergeSort (key_trans key) (key_total key) hties List.filter_sublist
  have hkept : (withKey key k entries).Sublist
      (withKey key k (entries.mergeSort fun a b ↦ key a ≤ key b)) := by
    have h := hsub.filter fun entry ↦ key entry = k
    simpa [withKey, List.filter_filter] using h
  have hperm : (withKey key k (entries.mergeSort fun a b ↦ key a ≤ key b)).Perm
      (withKey key k entries) :=
    (entries.mergeSort_perm _).filter _
  exact (hkept.eq_of_length hperm.length_eq.symm).symm

theorem key_le_of_mem {first entry : α} {rest : List α}
    (hsorted : (first :: rest).Pairwise fun a b ↦ key a ≤ key b) (hmem : entry ∈ first :: rest) :
    key first ≤ key entry := by
  rcases List.mem_cons.1 hmem with rfl | hmem
  · exact Nat.le_refl _
  · exact List.rel_of_pairwise_cons hsorted hmem

theorem mem_of_withKey_eq (h : ∀ k, withKey key k entries = withKey key k others)
    {entry : α} (hmem : entry ∈ entries) : entry ∈ others := by
  have hkey : entry ∈ withKey key (key entry) entries := mem_withKey.2 ⟨hmem, rfl⟩
  rw [h] at hkey
  exact (mem_withKey.1 hkey).1

/-- Lists sorted by keys are equal if they have the same entries with each key. -/
theorem eq_of_withKey_eq (hentries : entries.Pairwise fun a b ↦ key a ≤ key b)
    (hothers : others.Pairwise fun a b ↦ key a ≤ key b)
    (h : ∀ k, withKey key k entries = withKey key k others) : entries = others := by
  induction entries generalizing others with
  | nil =>
    symm
    rw [List.eq_nil_iff_forall_not_mem]
    intro other hmem
    exact List.not_mem_nil (mem_of_withKey_eq (fun k ↦ (h k).symm) hmem)
  | cons entry entries ih =>
    cases others with
    | nil => exact absurd (mem_of_withKey_eq h List.mem_cons_self) List.not_mem_nil
    | cons other others =>
      have hle : key other ≤ key entry :=
        key_le_of_mem hothers (mem_of_withKey_eq h List.mem_cons_self)
      have hge : key entry ≤ key other :=
        key_le_of_mem hentries (mem_of_withKey_eq (fun k ↦ (h k).symm) List.mem_cons_self)
      -- The first entries have the same key, so each is the first of all entries with that key.
      have hfirst := h (key entry)
      simp only [withKey, List.filter_cons, Nat.le_antisymm hle hge, decide_true, if_true] at hfirst
      obtain ⟨rfl, -⟩ := List.cons.inj hfirst
      have hrest : entries = others := by
        apply ih hentries.tail hothers.tail
        intro k
        have hkey := h k
        simp only [withKey, List.filter_cons] at hkey
        split at hkey
        · exact (List.cons.inj hkey).2
        · exact hkey
      rw [hrest]

/-- What is sorted by keys and has the same entries with each key is what the stable sort makes. -/
theorem mergeSort_eq_of_withKey_eq (hothers : others.Pairwise fun a b ↦ key a ≤ key b)
    (h : ∀ k, withKey key k others = withKey key k entries) :
    (entries.mergeSort fun a b ↦ key a ≤ key b) = others := by
  apply eq_of_withKey_eq (pairwise_mergeSort_key key entries) hothers
  intro k
  rw [withKey_mergeSort, h]

/-- It makes no difference whether entries are left out before sorting or afterwards. -/
theorem filter_mergeSort (key : α → Nat) (kept : α → Bool) (entries : List α) :
    (entries.mergeSort fun a b ↦ key a ≤ key b).filter kept =
      (entries.filter kept).mergeSort fun a b ↦ key a ≤ key b := by
  symm
  apply mergeSort_eq_of_withKey_eq ((pairwise_mergeSort_key key entries).filter _)
  intro k
  have h := congrArg (List.filter kept) (withKey_mergeSort key k entries)
  simpa only [withKey, List.filter_filter, Bool.and_comm] using h

end SortByKey

/-- Groups of which at most one counts can be taken in any order. -/
theorem flatMap_eq_of_perm {α β : Type} {f : β → List α} {groups others : List β}
    (hperm : groups.Perm others)
    (hone : groups.Pairwise fun group other ↦ f group = [] ∨ f other = []) :
    groups.flatMap f = others.flatMap f := by
  induction hperm with
  | nil => rfl
  | cons group _ ih => rw [List.flatMap_cons, List.flatMap_cons, ih hone.tail]
  | swap first second rest =>
    rcases List.rel_of_pairwise_cons hone List.mem_cons_self with hnil | hnil <;>
      simp [hnil]
  | trans hfirst _ ih ih' =>
    rw [ih hone]
    apply ih'
    exact (hfirst.pairwise_iff fun h ↦ h.symm).1 hone

end WasmBinary
