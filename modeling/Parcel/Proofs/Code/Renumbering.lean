import Parcel.Code.Listing
import Parcel.Code.Renumber
import Parcel.Proofs.Binding.Renaming

/-!
# Listings under a renaming

A listing shows names and no ids, except those of labels. With the labels of lowered code numbered
in the order in which they first appear, it does not depend on ids at all.
-/

namespace Parcel.Code

open List

/-! ### Expressions and statements -/

section Shown

variable (ρ : Renaming)

mutual

/-- **Expressions look the same** under new ids. -/
theorem Expr.shown_rename (e : Expr) : (e.rename ρ).shown = e.shown := by
  cases e with
  | literal | unresolved | name => rfl
  | paren e | unary _ e | conversion e | makeLength e =>
    rw [Expr.rename, Expr.shown, e.shown_rename, Expr.shown]
  | assign left right | binary left _ right | index left right =>
    rw [Expr.rename, Expr.shown, left.shown_rename, right.shown_rename, Expr.shown]
  | call f arguments =>
    rw [Expr.rename, Expr.shown, argumentsShown_rename arguments, Expr.shown]
    rfl
  | methodCall f receiver arguments =>
    rw [Expr.rename, Expr.shown, receiver.shown_rename, argumentsShown_rename arguments, Expr.shown]
    rfl
  | makeElements elements =>
    rw [Expr.rename, Expr.shown, argumentsShown_rename elements, Expr.shown]

lemma argumentsShown_rename (exprs : List Expr) :
    argumentsShown (renameEach ρ exprs) = argumentsShown exprs := by
  cases exprs with
  | nil => rfl
  | cons e rest =>
    have hfirst := e.shown_rename
    have hrest := argumentsShown_rename rest
    cases rest with
    | nil => exact hfirst
    | cons next rest =>
      show (e.rename ρ).shown ++ ", " ++ argumentsShown (renameEach ρ (next :: rest)) =
        e.shown ++ ", " ++ argumentsShown (next :: rest)
      rw [hfirst, hrest]

end

lemma loweredLine_rename {number number' : Label → Label}
    (h : ∀ label, number' (label.rename ρ) = number label) {stmt : Stmt}
    (hstmt : stmt.isLowered = true) :
    loweredLine (mapLabel number' (stmt.rename ρ)) = loweredLine (mapLabel number stmt) := by
  cases stmt with
  | declare v initializer =>
    cases initializer with
    | none => rfl
    | some e =>
      show indent 1 ++ ("var " ++ v.name ++ " " ++ v.type.shown ++ (" <- " ++ (e.rename ρ).shown)) ++
        "\n" = _
      rw [e.shown_rename]
      rfl
  | ret value =>
    cases value with
    | none => rfl
    | some e =>
      show indent 1 ++ ("return " ++ (e.rename ρ).shown) ++ "\n" = _
      rw [e.shown_rename]
      rfl
  | expr e =>
    show indent 1 ++ (e.rename ρ).shown ++ "\n" = _
    rw [e.shown_rename]
    rfl
  | label label | goto label => rw [Stmt.rename, mapLabel, h, mapLabel]
  | gotoIf condition label =>
    show indent 1 ++ ("gotoif " ++ (condition.rename ρ).shown ++ " " ++
      (number' (label.rename ρ)).shown) ++ "\n" = _
    rw [condition.shown_rename, h]
    rfl
  | delete | approach => rfl
  | whileLoop | forLoop | fromTo | loop | block | ifElse => cases hstmt

end Shown

/-! ### Numbers of labels -/

section Numbers

variable {ρ : Renaming}

variable {numbers numbers' : Std.TreeMap Nat Nat}

/-- The numbers are those of the labels under their new ids. -/
structure SameNumbers (ρ : Renaming) (numbers numbers' : Std.TreeMap Nat Nat) : Prop where
  size : numbers'.size = numbers.size
  number : ∀ label : Label, numbers'[(label.rename ρ).index]? = numbers[label.index]?

lemma SameNumbers.insertIfNew (h : SameNumbers ρ numbers numbers') (label : Label) :
    SameNumbers ρ (numbers.insertIfNew label.index numbers.size)
      (numbers'.insertIfNew (label.rename ρ).index numbers'.size) := by
  have hmem : (label.rename ρ).index ∈ numbers' ↔ label.index ∈ numbers := by
    rw [Std.TreeMap.mem_iff_isSome_getElem?, Std.TreeMap.mem_iff_isSome_getElem?, h.number]
  refine ⟨?_, fun other => ?_⟩
  · rw [Std.TreeMap.size_insertIfNew, Std.TreeMap.size_insertIfNew, h.size]
    simp only [hmem]
  · have hsame : (label.rename ρ).index = (other.rename ρ).index ↔ label.index = other.index :=
      ρ.label.injective.eq_iff
    simp only [Std.TreeMap.getElem?_insertIfNew, Nat.compare_eq_eq, hsame, hmem, h.size,
      h.number other]

/-- **A label has the same number** under its new id, if it is numbered among the same labels. -/
theorem sameNumbers_numbering (labels : List Label) :
    SameNumbers ρ (numbering labels) (numbering (labels.map (·.rename ρ))) := by
  have hfold : ∀ (labels : List Label) (numbers numbers' : Std.TreeMap Nat Nat),
      SameNumbers ρ numbers numbers' → SameNumbers ρ
        (labels.foldl (fun numbers label => numbers.insertIfNew label.index numbers.size) numbers)
        ((labels.map (·.rename ρ)).foldl
          (fun numbers (label : Label) => numbers.insertIfNew label.index numbers.size)
          numbers') := by
    intro labels
    induction labels with
    | nil => exact fun _ _ h => h
    | cons label labels ih => exact fun _ _ h => ih _ _ (h.insertIfNew label)
  exact hfold labels ∅ ∅ ⟨rfl, fun _ => rfl⟩

lemma SameNumbers.renumber (h : SameNumbers ρ numbers numbers') (label : Label) :
    renumber numbers' (label.rename ρ) = renumber numbers label := by
  rw [Code.renumber, Code.renumber, Std.TreeMap.getD_eq_getD_getElem?,
    Std.TreeMap.getD_eq_getD_getElem?, h.number, h.size]

end Numbers

/-! ### Programs -/

variable (ρ : Renaming)

lemma shownLabel?_rename (stmt : Stmt) :
    shownLabel? (stmt.rename ρ) = (shownLabel? stmt).map (·.rename ρ) := by
  cases stmt with
  | ifElse condition first second => cases second <;> rfl
  | _ => rfl

lemma labels_rename (body : Body) : (body.rename ρ).labels = body.labels.map (·.rename ρ) := by
  cases body with
  | structured => rfl
  | lowered =>
    rw [Body.rename, Body.labels, Body.labels, Array.toList_map, filterMap_map,
      map_filterMap]
    exact filterMap_congr fun stmt _ => shownLabel?_rename ρ stmt

lemma Function.listing_rename {number number' : Label → Label}
    (h : ∀ label, number' (label.rename ρ) = number label) {f : Function} {code : Array Stmt}
    (hcode : f.body = .lowered code) (hstmts : ∀ stmt ∈ code, stmt.isLowered = true) :
    Function.listing { f.rename ρ with body := (f.rename ρ).body.mapLabels number' } =
      Function.listing { f with body := f.body.mapLabels number } := by
  obtain ⟨symbol, file, body⟩ := f
  obtain rfl : body = .lowered code := hcode
  have hparams : (symbol.rename ρ).params.map (fun v => v.name ++ " " ++ v.type.shown) =
      symbol.params.map fun v => v.name ++ " " ++ v.type.shown := by
    rw [FunctionSymbol.params_rename, map_map]
    rfl
  have hlines : ((code.map (·.rename ρ)).map (mapLabel number')).toList.map loweredLine =
      (code.map (mapLabel number)).toList.map loweredLine := by
    simp only [Array.toList_map, map_map]
    exact map_congr_left fun stmt hstmt =>
      loweredLine_rename ρ h (hstmts stmt (Array.mem_toList_iff.mp hstmt))
  have hbody : Body.listing (.lowered ((code.map (·.rename ρ)).map (mapLabel number'))) =
      Body.listing (.lowered (code.map (mapLabel number))) := congrArg String.join hlines
  unfold Function.listing
  dsimp only [Function.rename, Body.rename, Body.mapLabels]
  rw [hparams, hbody]
  rfl

/-- **The listing of lowered functions is the same** under new ids, with the labels numbered in the
order of their first appearance. -/
theorem listing_renumbered_rename (ρ : Renaming) {p p' : Program}
    (hp : p'.functions = p.functions.map (·.rename ρ))
    (hlowered : ∀ f ∈ p.functions, ∃ code, f.body = .lowered code ∧
      ∀ stmt ∈ code, stmt.isLowered = true) : p'.renumbered.listing = p.renumbered.listing := by
  have hlabels : p'.functions.flatMap (·.body.labels) =
      (p.functions.flatMap (·.body.labels)).map (·.rename ρ) := by
    rw [hp, flatMap_map, map_flatMap]
    exact flatMap_congr fun f _ => labels_rename ρ f.body
  have hnumbers := sameNumbers_numbering (ρ := ρ) (p.functions.flatMap (·.body.labels))
  rw [← hlabels] at hnumbers
  have hlistings : p'.renumbered.functions.map Function.listing =
      p.renumbered.functions.map Function.listing := by
    rw [Program.renumbered, Program.renumbered]
    dsimp only
    rw [map_map, map_map]
    conv_lhs => rhs; rw [hp]
    rw [map_map]
    refine map_congr_left fun f hf => ?_
    obtain ⟨code, hcode, hstmts⟩ := hlowered f hf
    exact Function.listing_rename ρ hnumbers.renumber hcode hstmts
  rw [Program.listing, hlistings, Program.listing]

end Parcel.Code
