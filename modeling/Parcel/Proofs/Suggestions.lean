import Parcel.Proofs.Binding.Relisting

/-!
# Suggestions in any order of the candidates

The name that a message suggests is fixed by which candidates there are. So the errors of binding,
with their suggestions, do not depend on the order in which packages and types come to be listed.

## Main results

* `closest_in_any_order` — which name is suggested, and that no order matters to it.
-/

namespace Parcel

open Text

/-- **Suggestions do not depend on the order of the candidates.** Whatever `fold` takes away from
names before they are compared: nothing is suggested if and only if no candidate but the name itself
is within the threshold; otherwise it is the candidate within it that is least by its distance and
then by its text. It does not matter what sorts the candidates, of which the first closest is taken;
and candidates in another order, or repeated, give the same suggestion. So the errors of binding are
the same if the packages, types and containers come to be listed in another order before every
step. -/
theorem closest_in_any_order (fold : String → String) (name : String) (candidates : List String) :
    let distance (candidate : String) : Nat := editDistance (fold name) (fold candidate)
    let close (candidate : String) : Prop :=
      candidate ∈ candidates ∧ candidate ≠ name ∧ distance candidate ≤ max 1 (name.length / 3)
    (closestBy fold name candidates = none ↔ ∀ candidate, ¬ close candidate) ∧
    (∀ found, closestBy fold name candidates = some found ↔ close found ∧ ∀ other, close other →
      distance found < distance other ∨ distance found = distance other ∧ found ≤ other) ∧
    (∀ sorted : List String, sorted.Perm candidates → sorted.Pairwise (· ≤ ·) →
      firstClosest fold name sorted = closestBy fold name candidates) ∧
    (∀ candidates' : List String,
      (∀ candidate, candidate ∈ candidates' ↔ candidate ∈ candidates) →
      closestBy fold name candidates' = closestBy fold name candidates) ∧
    ∀ (catalog : Catalog) (ids : Ids) (files : List Syntax.Program) (order : Build → Catalog),
      catalog.Keyed → (∀ build : Build, build.catalog.Relisted (order build)) →
      ((buildFilesWith (relisting order) (indexed files)).run
        ⟨catalog, ids, .empty, #[]⟩).2.errors = (bindFiles catalog ids files).errors := by
  intro distance close
  have hclose (candidate : String) : Close fold name candidates candidate ↔ close candidate :=
    ⟨fun h => ⟨h.mem, h.other, h.near⟩, fun h => ⟨h.1, h.2.1, h.2.2⟩⟩
  refine ⟨?_, fun found => ?_, fun sorted hperm hsorted => ?_, fun _ => closestBy_congr,
    fun catalog ids files order hkeyed horder => ?_⟩
  · simp only [closestBy_eq_none_iff, hclose]
  · simp only [closestBy_eq_some_iff, hclose]
    rfl
  · rw [eq_inOrder hperm hsorted, closestBy]
  · have hself : Build.Relisted ⟨catalog, ids, .empty, #[]⟩ ⟨catalog, ids, .empty, #[]⟩ :=
      ⟨⟨.refl _, .refl _, .refl _⟩, hkeyed, rfl, rfl, rfl⟩
    exact (concurs_buildFilesWith horder (indexed files) _ _ hself).2.errors

/-- The entries of a catalog, each kind of them listed backwards. -/
def Catalog.reversed (c : Catalog) : Catalog :=
  ⟨c.packages.reverse, c.types.reverse, c.containers.reverse⟩

lemma Catalog.relisted_reversed (c : Catalog) : c.Relisted c.reversed :=
  ⟨List.reverse_perm _, List.reverse_perm _, List.reverse_perm _⟩

/-- Two packages, one of which loads a third that is not there; three names are one letter away from
it. The type of its variable is misspelt too. -/
def misspeltPackages : List Syntax.Program :=
  let here : Span := ⟨0, 0⟩
  [⟨[.package ⟨"six", here⟩, .load ⟨"Sis", here⟩ false]⟩,
    ⟨[.package ⟨"sip", here⟩, .global ⟨⟨"count", here⟩, some (.mk "lung" [] here), none, here⟩]⟩]

/-- Of three equally close names the first is taken, whichever it is; sorting makes it `sip`. -/
theorem closest_in_any_order_misspelt :
    let sys := Catalog.empty.withSys {}
    firstClosest toLower "Sis" ["sys", "six", "sip"] = some "sys" ∧
      closestBy toLower "Sis" ["sys", "six", "sip"] = some "sip" ∧
      firstClosest toLower "Sis" ["sip", "six", "sys"] = some "sip" ∧
      closestBy toLower "Sis" ["sip", "sip", "sys", "six"] = some "sip" ∧ sys.1.Keyed ∧
      (bindFiles sys.1 sys.2 misspeltPackages).errors.toList.map (·.error.message) =
        ["unknown package `Sis`; did you mean `sip`?",
          "unknown type `lung`; did you mean `long`?"] ∧
      ((buildFilesWith (relisting (·.catalog.reversed)) (indexed misspeltPackages)).run
        ⟨sys.1, sys.2, .empty, #[]⟩).2.errors = (bindFiles sys.1 sys.2 misspeltPackages).errors := by
  intro sys
  have hfound : closestBy toLower "Sis" ["sys", "six", "sip"] = some "sip" := by decide +kernel
  have hkeyed : sys.1.Keyed := ⟨Session.distinct_withSys, by decide +kernel, by decide +kernel⟩
  obtain ⟨-, -, hsorted, hrepeated, hbound⟩ := closest_in_any_order toLower "Sis" ["sys", "six", "sip"]
  have hmem (candidate : String) : candidate ∈ ["sip", "sip", "sys", "six"] ↔
      candidate ∈ ["sys", "six", "sip"] := by
    simp only [List.mem_cons, List.not_mem_nil]
    tauto
  have hperm : ["sip", "six", "sys"].Perm ["sys", "six", "sip"] := by decide +kernel
  refine ⟨by decide +kernel, hfound, (hsorted _ hperm (by decide +kernel)).trans hfound,
    (hrepeated _ hmem).trans hfound, hkeyed, by decide +kernel,
    hbound sys.1 sys.2 misspeltPackages (·.catalog.reversed) hkeyed
      fun build => build.catalog.relisted_reversed⟩

end Parcel
