import Parcel.Proofs.Binding.Parallel
import Parcel.Proofs.Sessions

/-!
# What a step of binding adds

A step of binding adds members to one package, takes ids, and appends functions and errors to what
is built. Steps that add to different packages may change places: what they add then differs in the
ids alone, since each takes them from where the other left off.
-/

namespace Parcel

open List

/-! ### Effects -/

/-- The declaration of a variable of a package, with the index of its file. -/
structure Initializer where
  file : Option Nat
  stmt : Code.Stmt

/-- What a package gets: members, and the declarations of its variables. -/
structure Growth where
  functions : List FunctionSymbol := []
  globals : List Var := []
  loads : List String := []
  includes : List String := []
  initializers : List Initializer := []

/-- What a step of binding adds. -/
structure Effect where
  growth : Growth := {}
  taken : Ids := {}
  pending : List Pending := []
  functions : List Code.Function := []
  errors : List FileError := []

/-- What is built, each kind of things in the order of building. -/
structure Draft where
  catalog : Catalog
  ids : Ids
  pending : List Pending
  functions : List Code.Function
  /-- The declarations of the variables of a package. -/
  initializers : String → List Initializer
  errors : List FileError

/-- One growth after another. -/
def Growth.append (δ ε : Growth) : Growth :=
  ⟨δ.functions ++ ε.functions, δ.globals ++ ε.globals, δ.loads ++ ε.loads,
    δ.includes ++ ε.includes, δ.initializers ++ ε.initializers⟩

/-- One effect after another. -/
def Effect.append (e f : Effect) : Effect :=
  ⟨e.growth.append f.growth, e.taken + f.taken, e.pending ++ f.pending,
    e.functions ++ f.functions, e.errors ++ f.errors⟩

/-- The table with more functions, each in the next place. -/
def FunctionTable.append (t : FunctionTable) (functions : List FunctionSymbol) : FunctionTable :=
  ⟨t.list ++ functions, t.index ++ (functions.map (·.name)).zipIdx t.list.length⟩

def Package.grow (p : Package) (δ : Growth) : Package :=
  ⟨p.name, p.table.append δ.functions, p.globals ++ δ.globals, p.loads ++ δ.loads,
    p.includes ++ δ.includes⟩

def Catalog.grow (c : Catalog) (package : String) (δ : Growth) : Catalog :=
  c.update package (·.grow δ)

def Draft.apply (d : Draft) (package : String) (e : Effect) : Draft where
  catalog := d.catalog.grow package e.growth
  ids := d.ids + e.taken
  pending := d.pending ++ e.pending
  functions := d.functions ++ e.functions
  initializers other :=
    d.initializers other ++ if other = package then e.growth.initializers else []
  errors := d.errors ++ e.errors

/-! ### Growing catalogs -/

namespace FunctionTable

variable (t : FunctionTable) (fs gs : List FunctionSymbol)

lemma append_nil : t.append [] = t := by
  simp only [append, List.append_nil, map_nil, zipIdx_nil]

lemma append_append : (t.append fs).append gs = t.append (fs ++ gs) := by
  simp only [append, append_assoc, map_append, zipIdx_append, length_append,
    length_map]

lemma rename_append (ρ : Renaming) :
    (t.append fs).rename ρ = (t.rename ρ).append (fs.map (·.rename ρ)) := by
  simp only [append, rename, map_append, length_map, map_map]
  rfl

end FunctionTable

namespace Catalog

variable (c : Catalog) (package : String) (δ : Growth)

lemma names_grow : (c.grow package δ).names = c.names :=
  names_update fun _ _ _ => rfl

lemma Distinct.grow {c : Catalog} (h : c.Distinct) : (c.grow package δ).Distinct := by
  rw [Distinct, names_grow]
  exact h

lemma package?_grow (other : String) : (c.grow package δ).package? other =
    (c.package? other).map fun p => if other = package then p.grow δ else p := by
  have hfind : (c.grow package δ).package? other =
      (c.packages.find? (·.name = other)).map fun p =>
        if p.name = package then p.grow δ else p := by
    rw [package?, grow, update, find?_map]
    congr 2
    funext p
    rw [Function.comp_apply]
    split <;> rfl
  rw [hfind]
  cases hp : c.packages.find? (·.name = other) with
  | none => simp only [package?, hp, Option.map_none]
  | some p =>
    have hname : p.name = other := by simpa using find?_some hp
    simp only [package?, hp, Option.map_some, hname]

lemma package?_grow_of_ne {c : Catalog} {package other : String} {δ : Growth}
    (h : other ≠ package) : (c.grow package δ).package? other = c.package? other := by
  rw [package?_grow]
  simp only [if_neg h, Option.map_id']

lemma package?_of_mem {c : Catalog} {package : String} (h : package ∈ c.names) :
    ∃ p, c.package? package = some p :=
  Option.isSome_iff_exists.mp (has_iff.mpr h)

lemma grow_nil : c.grow package {} = c := by
  have hself (p : Package) : (if p.name = package then p.grow {} else p) = p := by
    split
    · simp only [Package.grow, FunctionTable.append_nil, append_nil]
    · rfl
  simp only [grow, update, hself, map_id']

lemma grow_grow (ε : Growth) :
    (c.grow package δ).grow package ε = c.grow package (δ.append ε) := by
  simp only [grow, update, map_map]
  congr 1
  refine map_congr_left fun p _ => ?_
  rw [Function.comp_apply]
  by_cases hp : p.name = package
  · have hgrow : (p.grow δ).name = package := hp
    simp only [if_pos hp, if_pos hgrow]
    simp only [Package.grow, Growth.append, FunctionTable.append_append, append_assoc]
  · simp only [if_neg hp]

lemma grow_comm {other : String} (h : other ≠ package) (ε : Growth) :
    (c.grow package δ).grow other ε = (c.grow other ε).grow package δ := by
  simp only [grow, update, map_map]
  congr 1
  refine map_congr_left fun p _ => ?_
  rw [Function.comp_apply, Function.comp_apply]
  by_cases hp : p.name = package
  · have hgrow : (p.grow δ).name ≠ other := fun heq => h (heq.symm.trans hp)
    have hother : p.name ≠ other := hgrow
    simp only [if_pos hp, if_neg hother, if_neg hgrow]
  · by_cases hother : p.name = other
    · have hgrow : (p.grow ε).name ≠ package := hp
      simp only [if_neg hp, if_pos hother, if_neg hgrow]
    · simp only [if_neg hp, if_neg hother]

end Catalog

lemma Draft.apply_append (d : Draft) (package : String) (e f : Effect) :
    (d.apply package e).apply package f = d.apply package (e.append f) := by
  simp only [Draft.apply, Draft.mk.injEq, Effect.append, Ids.add_assoc, append_assoc,
    Catalog.grow_grow, true_and, and_true]
  funext other
  split
  · rfl
  · rfl

lemma Draft.apply_nil (d : Draft) (package : String) : d.apply package {} = d := by
  simp only [Draft.apply, Catalog.grow_nil, append_nil, ite_self]
  rfl

/-! ### Renaming of drafts -/

/-- The declaration with new ids, in the file under its new index. -/
def Initializer.rename (ρ : Renaming) (i : Initializer) : Initializer :=
  ⟨i.file.map ρ.file, i.stmt.rename ρ⟩

/-- The growth with new ids. -/
def Growth.rename (ρ : Renaming) (δ : Growth) : Growth :=
  { δ with
    functions := δ.functions.map (·.rename ρ)
    globals := δ.globals.map (·.rename ρ)
    initializers := δ.initializers.map (·.rename ρ) }

/-- The effect with new ids. -/
def Effect.rename (ρ : Renaming) (e : Effect) : Effect where
  growth := e.growth.rename ρ
  taken := e.taken
  pending := e.pending.map (·.rename ρ)
  functions := e.functions.map (·.rename ρ)
  errors := e.errors.map (·.rename ρ)

/-- The draft with new ids. -/
def Draft.rename (ρ : Renaming) (d : Draft) : Draft where
  catalog := d.catalog.rename ρ
  ids := d.ids
  pending := d.pending.map (·.rename ρ)
  functions := d.functions.map (·.rename ρ)
  initializers package := (d.initializers package).map (·.rename ρ)
  errors := d.errors.map (·.rename ρ)

section Rename

variable (ρ : Renaming)

lemma Growth.rename_append (δ ε : Growth) :
    (δ.append ε).rename ρ = (δ.rename ρ).append (ε.rename ρ) := by
  simp only [Growth.rename, Growth.append, map_append]

lemma Effect.rename_append (e f : Effect) :
    (e.append f).rename ρ = (e.rename ρ).append (f.rename ρ) := by
  simp only [Effect.rename, Effect.append, Growth.rename_append, map_append]

lemma Package.rename_grow (p : Package) (δ : Growth) :
    (p.grow δ).rename ρ = (p.rename ρ).grow (δ.rename ρ) := by
  simp only [Package.rename, Package.grow, Growth.rename, FunctionTable.rename_append,
    map_append]

lemma Catalog.rename_grow (c : Catalog) (package : String) (δ : Growth) :
    (c.grow package δ).rename ρ = (c.rename ρ).grow package (δ.rename ρ) := by
  simp only [Catalog.rename, Catalog.grow, Catalog.update, map_map]
  congr 1
  refine map_congr_left fun p _ => ?_
  rw [Function.comp_apply, Function.comp_apply, Package.name_rename]
  split
  · exact p.rename_grow ρ δ
  · rfl

lemma Draft.rename_apply (d : Draft) (package : String) (e : Effect) :
    (d.apply package e).rename ρ = (d.rename ρ).apply package (e.rename ρ) := by
  simp only [Draft.rename, Draft.apply, Effect.rename, Catalog.rename_grow, map_append,
    Draft.mk.injEq, true_and, and_true]
  funext other
  split
  · rfl
  · rfl

lemma Draft.rename_trans (σ : Renaming) (d : Draft) :
    d.rename (ρ.trans σ) = (d.rename ρ).rename σ := by
  have hinitializer (i : Initializer) : i.rename (ρ.trans σ) = (i.rename ρ).rename σ := by
    simp only [Initializer.rename, Code.Stmt.rename_trans, Option.map_map]
    rfl
  have herror (e : FileError) : e.rename (ρ.trans σ) = (e.rename ρ).rename σ := by
    simp only [FileError.rename, Option.map_map]
    rfl
  simp only [Draft.rename, Catalog.rename_trans, map_rename_trans ρ σ (Pending.rename_trans ρ σ),
    map_rename_trans ρ σ (Code.Function.rename_trans ρ σ), map_rename_trans ρ σ hinitializer,
    map_rename_trans ρ σ herror]

end Rename

/-! ### The same up to order -/

/-- Drafts that differ in the order of packages, functions and errors alone. -/
structure Draft.Same (d d' : Draft) : Prop where
  types : d'.catalog.types = d.catalog.types
  containers : d'.catalog.containers = d.catalog.containers
  packages : d'.catalog.packages.Perm d.catalog.packages
  ids : d'.ids = d.ids
  pending : d'.pending.Perm d.pending
  functions : d'.functions.Perm d.functions
  initializers : d'.initializers = d.initializers
  errors : d'.errors.Perm d.errors

lemma Ids.add_right_comm (ids n m : Ids) : ids + n + m = ids + m + n := by
  show Ids.mk _ _ _ = Ids.mk _ _ _
  simp only [Ids.nextVar_add, Ids.nextFunction_add, Ids.nextLabel_add, Nat.add_right_comm]

lemma perm_append_right_comm {α : Type} (l l₁ l₂ : List α) :
    (l ++ l₁ ++ l₂).Perm (l ++ l₂ ++ l₁) := by
  rw [append_assoc, append_assoc]
  exact perm_append_comm.append_left l

namespace Draft

variable {d d' d'' : Draft}

lemma Same.refl (d : Draft) : d.Same d :=
  ⟨rfl, rfl, .refl _, rfl, .refl _, .refl _, rfl, .refl _⟩

lemma Same.trans (h : d.Same d') (h' : d'.Same d'') : d.Same d'' where
  types := h'.types.trans h.types
  containers := h'.containers.trans h.containers
  packages := h'.packages.trans h.packages
  ids := h'.ids.trans h.ids
  pending := h'.pending.trans h.pending
  functions := h'.functions.trans h.functions
  initializers := h'.initializers.trans h.initializers
  errors := h'.errors.trans h.errors

lemma Same.rename (h : d.Same d') (ρ : Renaming) : (d.rename ρ).Same (d'.rename ρ) where
  types := h.types
  containers := by simp only [Draft.rename, Catalog.rename, h.containers]
  packages := h.packages.map _
  ids := h.ids
  pending := h.pending.map _
  functions := h.functions.map _
  initializers := by simp only [Draft.rename, h.initializers]
  errors := h.errors.map _

lemma Same.apply (h : d.Same d') (package : String) (e : Effect) :
    (d.apply package e).Same (d'.apply package e) where
  types := h.types
  containers := h.containers
  packages := h.packages.map _
  ids := congrArg (· + e.taken) h.ids
  pending := h.pending.append_right _
  functions := h.functions.append_right _
  initializers := by simp only [Draft.apply, h.initializers]
  errors := h.errors.append_right _

lemma Same.names (h : d.Same d') :
    d'.catalog.names.Perm d.catalog.names :=
  h.packages.map _

/-- **Effects change places** if they are on different packages or make no package grow. -/
theorem same_exchange {p q : String} {e f : Effect}
    (h : e.growth = {} ∧ f.growth = {} ∨ p ≠ q) :
    ((d.apply p e).apply q f).Same ((d.apply q f).apply p e) := by
  have hcatalog : ((d.apply q f).apply p e).catalog = ((d.apply p e).apply q f).catalog := by
    rcases h with ⟨he, hf⟩ | hne
    · simp only [Draft.apply, he, hf, Catalog.grow_nil]
    · exact Catalog.grow_comm _ q f.growth hne e.growth
  refine ⟨by rw [hcatalog], by rw [hcatalog], by rw [hcatalog], ?_, ?_, ?_, ?_, ?_⟩
  · exact Ids.add_right_comm _ _ _
  · exact perm_append_right_comm _ _ _
  · exact perm_append_right_comm _ _ _
  · funext other
    simp only [Draft.apply]
    rcases h with ⟨he, hf⟩ | hne
    · simp only [he, hf, ite_self, append_nil]
    · by_cases hother : other = p
      · simp only [hother, if_neg hne, append_nil]
      · simp only [if_neg hother, append_nil]
  · exact perm_append_right_comm _ _ _

end Draft

end Parcel
