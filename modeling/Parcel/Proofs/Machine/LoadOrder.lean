import Mathlib.Data.Finset.Card
import Mathlib.Logic.Relation
import Parcel.Machine.Run

/-!
# The order in which packages are initialized

The order is a walk through the packages that are loaded, in which a package is listed once the walk
has come back from all that it loads. Packages are opened, then listed; one that is opened and not
yet listed lies on the path to where the walk is.
-/

namespace Parcel

open List

variable {p q package : String} {loads : String → List String}

/-- A package leads to another one through loads. -/
def Reaches (loads : String → List String) : String → String → Prop :=
  Relation.ReflTransGen fun package loaded => loaded ∈ loads package

lemma Reaches.loaded {r : String} (h : Reaches loads p q) (hr : r ∈ loads q) : Reaches loads p r :=
  Relation.ReflTransGen.tail h hr

lemma Reaches.mem_of_closed (h : Reaches loads p q) (packages : List String)
    (hclosed : ∀ p ∈ packages, ∀ q ∈ loads p, q ∈ packages) (hp : p ∈ packages) : q ∈ packages := by
  induction h with
  | refl => exact hp
  | tail _ hload ih => exact hclosed _ ih _ hload

namespace LoadWalk

variable {loads : String → List String}

variable {opened names : List String} {walk walk' : LoadWalk}

/-- What holds of a walk while the packages `opened` are waiting for those that they load. -/
structure Sound (loads : String → List String) (opened : List String) (walk : LoadWalk) : Prop where
  seen : ∀ p, p ∈ walk.seen ↔ p ∈ opened ∨ p ∈ walk.listed
  nodup : walk.listed.Nodup
  waiting : ∀ p ∈ opened, p ∉ walk.listed
  loaded : ∀ p ∈ walk.listed, ∀ q ∈ loads p, q ∈ walk.seen
  ordered : ∀ p ∈ walk.listed, ∀ q ∈ loads p, Reaches loads q p ∨ [q, p].Sublist walk.listed

/-- The second walk is the first one after visits to the packages `roots`. -/
structure Grows (loads : String → List String) (opened roots : List String)
    (walk walk' : LoadWalk) : Prop where
  sound : walk'.Sound loads opened
  seen : walk.seen ⊆ walk'.seen
  visited : roots ⊆ walk'.seen
  listed : ∃ added, walk'.listed = walk.listed ++ added ∧
    ∀ p ∈ added, ∃ root ∈ roots, Reaches loads root p

lemma grows_nil (h : walk.Sound loads opened) : Grows loads opened [] walk walk where
  sound := h
  seen := List.Subset.refl _
  visited := nil_subset _
  listed := ⟨[], (append_nil _).symm, fun _ hp => nomatch hp⟩

lemma Grows.trans {roots roots' : List String} {walk'' : LoadWalk}
    (h : Grows loads opened roots walk walk') (h' : Grows loads opened roots' walk' walk'') :
    Grows loads opened (roots ++ roots') walk walk'' where
  sound := h'.sound
  seen := List.Subset.trans h.seen h'.seen
  visited := append_subset.mpr ⟨List.Subset.trans h.visited h'.seen, h'.visited⟩
  listed := by
    obtain ⟨added, hlisted, hreach⟩ := h.listed
    obtain ⟨added', hlisted', hreach'⟩ := h'.listed
    refine ⟨added ++ added', by rw [hlisted', hlisted, append_assoc], ?_⟩
    intro p hp
    rcases mem_append.mp hp with hp | hp
    · obtain ⟨root, hroot, hp⟩ := hreach p hp
      exact ⟨root, mem_append_left _ hroot, hp⟩
    · obtain ⟨root, hroot, hp⟩ := hreach' p hp
      exact ⟨root, mem_append_right _ hroot, hp⟩

/-- The number of packages that load others and that the walk has not seen. -/
def unseen (names : List String) (walk : LoadWalk) : Nat :=
  (names.toFinset \ walk.seen.toFinset).card

lemma unseen_le_of_subset (h : walk.seen ⊆ walk'.seen) :
    walk'.unseen names ≤ walk.unseen names := by
  refine Finset.card_le_card (Finset.sdiff_subset_sdiff (Finset.Subset.refl _) ?_)
  exact fun p hp => mem_toFinset.mpr (h (mem_toFinset.mp hp))

lemma unseen_lt_of_open (hname : package ∈ names) (hfresh : package ∉ walk.seen) :
    LoadWalk.unseen names ⟨package :: walk.seen, walk.listed⟩ < walk.unseen names := by
  refine Finset.card_lt_card (Finset.ssubset_iff_of_subset ?_ |>.mpr ⟨package, ?_, ?_⟩)
  · refine Finset.sdiff_subset_sdiff (Finset.Subset.refl _) fun p hp => ?_
    exact mem_toFinset.mpr (mem_cons_of_mem _ (mem_toFinset.mp hp))
  · simp [hname, hfresh]
  · simp

lemma Sound.opening (h : walk.Sound loads opened) (hfresh : package ∉ walk.seen) :
    Sound loads (package :: opened) ⟨package :: walk.seen, walk.listed⟩ where
  seen p := by
    rw [mem_cons, h.seen, mem_cons, or_assoc]
  nodup := h.nodup
  waiting p hp := by
    rcases mem_cons.mp hp with rfl | hp
    · exact fun hlisted => hfresh ((h.seen p).mpr (.inr hlisted))
    · exact h.waiting p hp
  loaded p hp q hq := mem_cons_of_mem _ (h.loaded p hp q hq)
  ordered := h.ordered

/-- Listing the package that was opened last, after all that it loads is seen. What it loads is
listed already, or is still opened and so leads to the package. -/
lemma Sound.listing (h : walk.Sound loads (package :: opened)) (hopened : package ∉ opened)
    (hpath : ∀ p ∈ opened, Reaches loads p package) (hloads : loads package ⊆ walk.seen) :
    Sound loads opened ⟨walk.seen, walk.listed ++ [package]⟩ where
  seen p := by
    rw [h.seen, mem_cons, mem_append, mem_singleton, or_assoc, or_comm (a := p = _),
      or_assoc]
  nodup := by
    refine nodup_append.mpr ⟨h.nodup, nodup_singleton _, ?_⟩
    rintro p hp q hq rfl
    obtain rfl := mem_singleton.mp hq
    exact h.waiting p mem_cons_self hp
  waiting p hp hlisted := by
    rcases mem_append.mp hlisted with hlisted | hlisted
    · exact h.waiting p (mem_cons_of_mem _ hp) hlisted
    · exact hopened (mem_singleton.mp hlisted ▸ hp)
  loaded p hp := by
    rcases mem_append.mp hp with hp | hp
    · exact h.loaded p hp
    · rw [mem_singleton.mp hp]
      exact fun q hq => hloads hq
  ordered p hp q hq := by
    rcases mem_append.mp hp with hp | hp
    · exact (h.ordered p hp q hq).imp_right (·.trans (sublist_append_left _ _))
    · obtain rfl := mem_singleton.mp hp
      rcases (h.seen q).mp (hloads hq) with hwaiting | hlisted
      · rcases mem_cons.mp hwaiting with rfl | hwaiting
        · exact .inl .refl
        · exact .inl (hpath q hwaiting)
      · exact .inr ((singleton_sublist.mpr hlisted).append (List.Sublist.refl [p]))

lemma grows_foldl (names : List String) {depth : Nat}
    (hvisit : ∀ walk package, Sound loads opened walk → (∀ p ∈ opened, Reaches loads p package) →
      walk.unseen names < depth → Grows loads opened [package] walk (visit loads depth walk package))
    (packages : List String) (walk : LoadWalk) (hwalk : walk.Sound loads opened)
    (hpath : ∀ p ∈ opened, ∀ package ∈ packages, Reaches loads p package)
    (hdepth : walk.unseen names < depth) :
    Grows loads opened packages walk (packages.foldl (visit loads depth) walk) := by
  induction packages generalizing walk with
  | nil => exact grows_nil hwalk
  | cons package packages ih =>
    have hfirst := hvisit walk package hwalk (fun p hp => hpath p hp package mem_cons_self) hdepth
    refine hfirst.trans (ih _ hfirst.sound ?_ ?_)
    · exact fun p hp q hq => hpath p hp q (mem_cons_of_mem _ hq)
    · exact Nat.lt_of_le_of_lt (unseen_le_of_subset hfirst.seen) hdepth

/-- **A visit** lists what the package leads to and what was not seen before, each package after
those that it loads.

**Proof sketch.** Induction on the depth. A path through packages that are not yet seen has only
packages that load others, up to its end, so the depth lasts while there are such packages. -/
theorem grows_visit (hnames : ∀ p, loads p ≠ [] → p ∈ names) (depth : Nat) (opened : List String)
    (walk : LoadWalk) (package : String) (hwalk : walk.Sound loads opened)
    (hpath : ∀ p ∈ opened, Reaches loads p package) (hdepth : walk.unseen names < depth) :
    Grows loads opened [package] walk (visit loads depth walk package) := by
  induction depth generalizing opened walk package with
  | zero => exact absurd hdepth (Nat.not_lt_zero _)
  | succ depth ih =>
    rw [visit]
    split
    next hseen =>
      refine ⟨hwalk, List.Subset.refl _, ?_, [], (append_nil _).symm, fun _ hp => nomatch hp⟩
      exact cons_subset.mpr ⟨hseen, nil_subset _⟩
    next hfresh =>
      have hopen := hwalk.opening hfresh
      have hnot : package ∉ opened := fun hp => hfresh ((hwalk.seen package).mpr (.inl hp))
      have hgrows : Grows loads (package :: opened) (loads package)
          ⟨package :: walk.seen, walk.listed⟩
          ((loads package).foldl (visit loads depth) ⟨package :: walk.seen, walk.listed⟩) := by
        by_cases hloads : loads package = []
        · rw [hloads]
          exact grows_nil hopen
        · refine grows_foldl names (fun walk p => ih (package :: opened) walk p) _ _ hopen ?_ ?_
          · intro p hp q hq
            rcases mem_cons.mp hp with rfl | hp
            · exact .single hq
            · exact (hpath p hp).loaded hq
          · have := unseen_lt_of_open (hnames package hloads) hfresh
            omega
      obtain ⟨added, hlisted, hreach⟩ := hgrows.listed
      refine ⟨hgrows.sound.listing hnot hpath hgrows.visited, ?_, ?_, added ++ [package], ?_, ?_⟩
      · exact fun p hp => hgrows.seen (mem_cons_of_mem _ hp)
      · exact cons_subset.mpr ⟨hgrows.seen mem_cons_self, nil_subset _⟩
      · exact (congrArg (· ++ [package]) hlisted).trans (append_assoc _ _ _)
      · intro p hp
        refine ⟨package, mem_cons_self, ?_⟩
        rcases mem_append.mp hp with hp | hp
        · obtain ⟨root, hroot, hp⟩ := hreach p hp
          exact Relation.ReflTransGen.head hroot hp
        · rw [mem_singleton.mp hp]
          exact .refl

/-- When nothing is opened any more, what is listed holds all that its packages lead to. -/
lemma Sound.mem_of_reaches (h : walk.Sound loads []) (hp : p ∈ walk.listed)
    (hq : Reaches loads p q) : q ∈ walk.listed := by
  refine hq.mem_of_closed _ (fun package hpackage loaded hloaded => ?_) hp
  exact ((h.seen _).mp (h.loaded package hpackage loaded hloaded)).resolve_left not_mem_nil

end LoadWalk

/-! ### The order of a catalog -/

lemma Catalog.mem_names_of_loadsOf {c : Catalog} (h : c.loadsOf package ≠ []) :
    package ∈ c.packages.map (·.name) := by
  unfold Catalog.loadsOf at h
  cases hfound : c.package? package with
  | none => exact absurd (by rw [hfound]; rfl) h
  | some p =>
    refine mem_map.mpr ⟨p, mem_of_find?_eq_some hfound, ?_⟩
    have hname := find?_some hfound
    exact of_decide_eq_true hname

section Order

variable (c : Catalog) (entry : String) (groups : List Code.GlobalGroup)

lemma grows_walk {walk : LoadWalk} (h : walk.Sound c.loadsOf []) (packages : List String) :
    LoadWalk.Grows c.loadsOf [] packages walk
      (packages.foldl (LoadWalk.visit c.loadsOf (c.packages.length + 1)) walk) := by
  refine LoadWalk.grows_foldl (c.packages.map (·.name))
    (fun walk package => LoadWalk.grows_visit (fun _ => Catalog.mem_names_of_loadsOf) _ [] walk package)
    packages walk h (fun _ hp => nomatch hp) ?_
  refine Nat.lt_succ_of_le (Nat.le_trans (Finset.card_le_card Finset.sdiff_subset) ?_)
  exact Nat.le_trans (toFinset_card_le _) (by rw [length_map])

lemma sound_start : LoadWalk.Sound c.loadsOf [] ⟨[], []⟩ where
  seen p := by simp
  nodup := nodup_nil
  waiting _ hp := nomatch hp
  loaded _ hp := nomatch hp
  ordered _ hp := nomatch hp

/-- First everything is listed that the entry package leads to, and then what the packages with
variables lead to. -/
lemma initOrder_eq_append : ∃ first rest, initOrder c entry groups = first ++ rest ∧
    (first ++ rest).Nodup ∧ (∀ p, p ∈ first ↔ Reaches c.loadsOf entry p) ∧
    (∀ p ∈ rest, ∃ group ∈ groups, Reaches c.loadsOf group.package p) ∧
    (∀ group ∈ groups, ∀ p, Reaches c.loadsOf group.package p → p ∈ first ++ rest) ∧
    ∀ p ∈ first ++ rest, ∀ q ∈ c.loadsOf p,
      Reaches c.loadsOf q p ∨ [q, p].Sublist (first ++ rest) := by
  have hfirst := grows_walk c (sound_start c) [entry]
  generalize hwalk : [entry].foldl (LoadWalk.visit c.loadsOf (c.packages.length + 1)) ⟨[], []⟩ = walk
    at hfirst
  have hrest := grows_walk c hfirst.sound (groups.map (·.package))
  have horder : initOrder c entry groups = ((groups.map (·.package)).foldl
      (LoadWalk.visit c.loadsOf (c.packages.length + 1)) walk).listed := by
    rw [← hwalk]
    rfl
  generalize (groups.map (·.package)).foldl (LoadWalk.visit c.loadsOf (c.packages.length + 1)) walk =
    walk' at hrest horder
  obtain ⟨added, hadded, hreach⟩ := hfirst.listed
  obtain ⟨rest, hlisted, hreach'⟩ := hrest.listed
  rw [nil_append] at hadded
  have seen_listed {walk : LoadWalk} (h : walk.Sound c.loadsOf []) {p : String} (hp : p ∈ walk.seen) :
      p ∈ walk.listed := ((h.seen p).mp hp).resolve_left not_mem_nil
  refine ⟨walk.listed, rest, horder.trans hlisted, hlisted ▸ hrest.sound.nodup, ?_, ?_, ?_, ?_⟩
  · intro p
    constructor
    · intro hp
      obtain ⟨root, hroot, hp⟩ := hreach p (hadded ▸ hp)
      rwa [mem_singleton.mp hroot] at hp
    · exact hfirst.sound.mem_of_reaches (seen_listed hfirst.sound (hfirst.visited mem_cons_self))
  · intro p hp
    obtain ⟨root, hroot, hp⟩ := hreach' p hp
    obtain ⟨group, hgroup, rfl⟩ := mem_map.mp hroot
    exact ⟨group, hgroup, hp⟩
  · intro group hgroup p hp
    rw [← hlisted]
    refine hrest.sound.mem_of_reaches (seen_listed hrest.sound (hrest.visited ?_)) hp
    exact mem_map.mpr ⟨group, hgroup, rfl⟩
  · rw [← hlisted]
    exact hrest.sound.ordered

lemma nodup_initOrder : (initOrder c entry groups).Nodup := by
  obtain ⟨first, rest, horder, hnodup, -⟩ := initOrder_eq_append c entry groups
  rw [horder]
  exact hnodup

/-- **Which packages are listed**: those that the entry package or a package with variables leads
to. -/
theorem mem_initOrder : p ∈ initOrder c entry groups ↔
    Reaches c.loadsOf entry p ∨ ∃ group ∈ groups, Reaches c.loadsOf group.package p := by
  obtain ⟨first, rest, horder, -, hfirst, hrest, hgroups, -⟩ := initOrder_eq_append c entry groups
  rw [horder]
  constructor
  · intro hp
    rcases mem_append.mp hp with hp | hp
    · exact .inl ((hfirst p).mp hp)
    · exact .inr (hrest p hp)
  · rintro (hp | ⟨group, hgroup, hp⟩)
    · exact mem_append_left _ ((hfirst p).mpr hp)
    · exact hgroups group hgroup p hp

/-- **A package comes after those that it loads**, unless they lead back to it. -/
theorem sublist_initOrder_of_loads (hp : p ∈ initOrder c entry groups) (hq : q ∈ c.loadsOf p)
    (hback : ¬ Reaches c.loadsOf q p) : [q, p].Sublist (initOrder c entry groups) := by
  obtain ⟨first, rest, horder, -, -, -, -, hordered⟩ := initOrder_eq_append c entry groups
  rw [horder] at hp ⊢
  exact (hordered p hp q hq).resolve_left hback

/-- **What the entry package leads to** comes before everything else. -/
theorem sublist_initOrder_of_reaches (hp : Reaches c.loadsOf entry p)
    (hq : q ∈ initOrder c entry groups) (hnot : ¬ Reaches c.loadsOf entry q) :
    [p, q].Sublist (initOrder c entry groups) := by
  obtain ⟨first, rest, horder, -, hfirst, -, -, -⟩ := initOrder_eq_append c entry groups
  rw [horder] at hq ⊢
  have hrest : q ∈ rest := (mem_append.mp hq).resolve_left fun h => hnot ((hfirst q).mp h)
  exact (singleton_sublist.mpr ((hfirst p).mpr hp)).append (singleton_sublist.mpr hrest)

end Order

end Parcel
