import Mathlib.Data.List.Nodup
import Mathlib.Data.List.Perm.Basic

/-!
# Entries that are told apart by a key

What is looked up by its key in a list that has no key twice does not depend on the order of the
list. Where entries come one after another and those with a key that is there already are passed
over, the first entry of every key is kept.
-/

namespace Parcel

open List

variable {α κ : Type} [DecidableEq κ] {key : α → κ} {k : κ} {a : α}

lemma find?_key_eq_some_iff {l : List α} (h : (l.map key).Nodup) :
    l.find? (key · = k) = some a ↔ a ∈ l ∧ key a = k := by
  constructor
  · exact fun hfound => ⟨mem_of_find?_eq_some hfound, by simpa using find?_some hfound⟩
  · rintro ⟨ha, rfl⟩
    cases hfound : l.find? (key · = key a) with
    | none => exact absurd (find?_eq_none.mp hfound a ha) (by simp)
    | some b =>
      have hkey : key b = key a := by simpa using find?_some hfound
      rw [inj_on_of_nodup_map h (mem_of_find?_eq_some hfound) ha hkey]

lemma find?_key_eq_of_perm {l l' : List α} (h : (l.map key).Nodup) (hperm : l'.Perm l) (k : κ) :
    l'.find? (key · = k) = l.find? (key · = k) := by
  refine Option.ext fun a => ?_
  rw [find?_key_eq_some_iff h, find?_key_eq_some_iff ((hperm.map key).nodup_iff.mpr h),
    hperm.mem_iff]

lemma find?_key_isSome_iff {l : List α} :
    (l.find? (key · = k)).isSome = true ↔ k ∈ l.map key := by
  simp only [find?_isSome, mem_map, decide_eq_true_eq]

lemma lookup_eq_some_iff_mem {l : List (κ × α)} (h : (l.map Prod.fst).Nodup) :
    l.lookup k = some a ↔ (k, a) ∈ l := by
  rw [lookup_eq_some_iff]
  constructor
  · rintro ⟨l₁, l₂, rfl, -⟩
    simp
  · intro hmem
    obtain ⟨l₁, l₂, rfl⟩ := append_of_mem hmem
    refine ⟨l₁, l₂, rfl, fun entry hentry => ?_⟩
    rw [map_append, nodup_append] at h
    have hne := h.2.2 entry.1 (mem_map_of_mem hentry) k mem_cons_self
    exact bne_iff_ne.mpr hne.symm

lemma eraseDups_concat (l : List κ) (k : κ) :
    (l ++ [k]).eraseDups = if k ∈ l then l.eraseDups else l.eraseDups ++ [k] := by
  rw [eraseDups_append, List.removeAll, filter_singleton]
  by_cases hk : k ∈ l
  · simp [hk]
  · simp [hk, eraseDups_cons]

/-- `kept` has of every key the entry that comes first in `all`, in the order in which the keys
first occur there. -/
structure Firsts (key : α → κ) (all kept : List α) : Prop where
  keys : kept.map key = (all.map key).eraseDups
  nodup : (kept.map key).Nodup
  find? : ∀ k, kept.find? (key · = k) = all.find? (key · = k)

namespace Firsts

variable {all kept : List α}

lemma nil : Firsts key [] [] :=
  ⟨rfl, nodup_nil, fun _ => rfl⟩

lemma mem_iff (h : Firsts key all kept) : k ∈ kept.map key ↔ k ∈ all.map key := by
  rw [h.keys, mem_eraseDups]

lemma concat_old (h : Firsts key all kept) (ha : key a ∈ kept.map key) :
    Firsts key (all ++ [a]) kept := by
  have hall := h.mem_iff.mp ha
  refine ⟨?_, h.nodup, fun k => ?_⟩
  · rw [h.keys, map_append, map_singleton, eraseDups_concat, if_pos hall]
  · rw [h.find?, find?_append]
    by_cases hk : key a = k
    · have hfound : (all.find? (key · = k)).isSome = true := find?_key_isSome_iff.mpr (hk ▸ hall)
      obtain ⟨b, hb⟩ := Option.isSome_iff_exists.mp hfound
      rw [hb, Option.some_or]
    · simp [hk]

lemma concat_new (h : Firsts key all kept) (ha : key a ∉ kept.map key) :
    Firsts key (all ++ [a]) (kept ++ [a]) := by
  have hall := mt h.mem_iff.mpr ha
  refine ⟨?_, ?_, fun k => ?_⟩
  · rw [map_append, h.keys, map_append, map_singleton, eraseDups_concat, if_neg hall]
  · rw [map_append, map_singleton, ← concat_eq_append]
    exact h.nodup.concat ha
  · rw [find?_append, find?_append, h.find?]

end Firsts

end Parcel
