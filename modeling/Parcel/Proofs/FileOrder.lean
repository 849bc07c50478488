import Parcel.Proofs.Binding.Declared

/-!
# The order of files

Files of different packages may be bound in any order: the result is the same up to the order of
what is built and the ids of variables, functions and labels.

## Main results

* `bindFiles_renamed_of_perm` — files of different packages in another order.
-/

namespace Parcel

open List

/-- What is built is the same up to order, with new ids and new indices of files. -/
structure Build.Renamed (ρ : Renaming) (b b' : Build) : Prop where
  types : b'.catalog.types = b.catalog.types
  containers : b'.catalog.containers = b.catalog.containers.map (·.rename ρ)
  packages : b'.catalog.packages.Perm (b.catalog.packages.map (·.rename ρ))
  functions : b'.program.functions.Perm (b.program.functions.map (·.rename ρ))
  initializers : ∀ package, b'.program.initializers package =
    (b.program.initializers package).map (·.rename ρ)
  errors : b'.errors.toList.Perm (b.errors.toList.map (·.rename ρ))

/-! ### The packages of the files -/

/-- A package without members. -/
def Package.blank (name : String) : Package :=
  { name }

/-- The catalog with packages without members. -/
def Catalog.withBlanks (c : Catalog) (names : List String) : Catalog :=
  { c with packages := c.packages ++ names.map .blank }

lemma catalog_openedDraft (c : Catalog) (ids : Ids) {files : List SourceFile}
    (h : (files.map (·.program.package)).Nodup) :
    (openedDraft c ids files).catalog = c.withBlanks
      ((files.map (·.program.package)).filter (· ∉ c.names)) := by
  induction files generalizing c with
  | nil =>
    simp only [Catalog.withBlanks, map_nil, filter_nil, append_nil]
    rfl
  | cons file files ih =>
    obtain ⟨hnew, hnodup⟩ := nodup_cons.mp h
    refine (ih (c.ensurePackage file.program.package) hnodup).trans ?_
    rw [map_cons]
    by_cases hmem : file.program.package ∈ c.names
    · rw [Catalog.ensurePackage_of_mem hmem, filter_cons_of_neg (by simpa using hmem)]
    · have hensure : c.ensurePackage file.program.package =
          { c with packages := c.packages ++ [.blank file.program.package] } := by
        rw [Catalog.ensurePackage, if_neg]
        · rfl
        · exact mt Catalog.has_iff.mp hmem
      have hfilter : (files.map (·.program.package)).filter
            (· ∉ (c.packages ++ [Package.blank file.program.package]).map (·.name)) =
          (files.map (·.program.package)).filter (· ∉ c.names) := by
        refine filter_congr fun name hname => ?_
        have hne : name ≠ file.program.package := by
          rintro rfl
          exact hnew hname
        rw [map_append]
        simp only [mem_append, map_cons, map_nil, mem_singleton,
          Package.blank, hne, or_false]
      rw [filter_cons_of_pos (by simpa using hmem), hensure, hfilter, Catalog.withBlanks,
        append_assoc]
      rfl

/-! ### Drafts that are twins -/

/-- Drafts that are the same up to order and ids, where the ids below the first counters stay and
the files have these new indices. -/
structure Draft.Twins (ids : Ids) (file : Equiv.Perm Nat) (ρ : Renaming) (d d' : Draft) : Prop where
  same : (d.rename ρ).Same d'
  keeps : ρ.Keeps d.ids
  fixes : ρ.Fixes ids
  file : ρ.file = file
  distinct : d.catalog.Distinct
  supported : d'.Supported
  later : ∃ n, d'.ids = ids + n

namespace Draft.Twins

variable {ids : Ids} {file : Equiv.Perm Nat} {ρ : Renaming} {d d' : Draft}

lemma names (h : Twins ids file ρ d d') :
    d'.catalog.names.Perm d.catalog.names := by
  have hnames := h.same.names
  rwa [show (d.rename ρ).catalog.names = d.catalog.names from
    Catalog.names_rename d.catalog ρ] at hnames

lemma distinct' (h : Twins ids file ρ d d') : d'.catalog.Distinct :=
  h.names.nodup_iff.mpr h.distinct

/-- A phase takes twins to twins, in whichever order its tasks come. -/
lemma run (h : Twins ids file ρ d d') {τ : Type} (s : Phase τ) {l l' : List τ}
    (hperm : (l.map (s.rename ρ)).Perm l')
    (hl : ∀ a ∈ l, s.package a ∈ d.catalog.names) (hl' : ∀ a ∈ l', s.Fits d' a)
    (hindependent : s.Still ∨ (l'.map s.package).Nodup) :
    ∃ ρ', Twins ids file ρ' (s.run l d) (s.run l' d') := by
  obtain ⟨σ, hfixes, hfile, hkeeps, hsame⟩ := Phase.exists_run_rename hperm h.distinct h.distinct'
    h.same h.keeps h.supported hl hl' hindependent
  obtain ⟨n, hn⟩ := h.later
  obtain ⟨m, hm⟩ := Phase.ids_run (s := s) l' d'
  refine ⟨ρ.trans σ, hsame, hkeeps, h.fixes.trans (hn ▸ hfixes).before, ?_,
    Phase.distinct_run h.distinct l, Phase.supported_run l' h.distinct' h.supported hl', n + m, ?_⟩
  · rw [Renaming.trans, hfile, ← h.file]
    rfl
  · rw [hm, hn, Ids.add_assoc]

lemma runFiles (h : Twins ids file ρ d d') {τ : Type} (t : FileTasks τ)
    {files files' : List SourceFile} (hperm : (files.map (·.rename ρ)).Perm files')
    (hnodup : (files.map (·.program.package)).Nodup)
    (hfiles : ∀ file ∈ files, file.program.package ∈ d.catalog.names) :
    ∃ ρ', Twins ids file ρ' (t.phase.run files d) (t.phase.run files' d') := by
  have hpackages : (files'.map (·.program.package)).Perm (files.map (·.program.package)) := by
    have hmap := (hperm.map (·.program.package)).symm
    rwa [map_map] at hmap
  refine h.run t.phase hperm hfiles (fun file' hfile' => t.fits_phase ?_)
    (.inr (hpackages.nodup_iff.mpr hnodup))
  obtain ⟨file, hfile, hsame⟩ := mem_map.mp
    (hpackages.mem_iff.mp (mem_map_of_mem hfile'))
  have hmem := hfiles file hfile
  rw [hsame] at hmem
  rw [h.names.mem_iff]
  exact hmem

end Draft.Twins

/-! ### Indices of files -/

/-- The indices after one that stays first. -/
def shiftIndices (π : Equiv.Perm Nat) : Equiv.Perm Nat where
  toFun n := if n = 0 then 0 else π (n - 1) + 1
  invFun n := if n = 0 then 0 else π.symm (n - 1) + 1
  left_inv n := by cases n <;> simp
  right_inv n := by cases n <;> simp

/-- The members of a list in another order have new indices. -/
lemma exists_indices {α : Type} {l l' : List α} (h : l.Perm l') :
    ∃ π : Equiv.Perm Nat, ∀ i, l'[π i]? = l[i]? := by
  induction h with
  | nil => exact ⟨.refl _, fun i => rfl⟩
  | cons a _ ih =>
    obtain ⟨π, hπ⟩ := ih
    refine ⟨shiftIndices π, fun i => ?_⟩
    cases i with
    | zero => rfl
    | succ i => exact hπ i
  | swap =>
    refine ⟨swapBlocks 0 1 1, fun i => ?_⟩
    match i with
    | 0 => rfl
    | 1 => rfl
    | i + 2 =>
      rw [swapBlocks_after (by omega)]
      rfl
  | trans _ _ ih₁ ih₂ =>
    obtain ⟨π, hπ⟩ := ih₁
    obtain ⟨π', hπ'⟩ := ih₂
    exact ⟨π.trans π', fun i => (hπ' (π i)).trans (hπ i)⟩

lemma mem_indexed {files : List Syntax.Program} {file : SourceFile} :
    file ∈ indexed files ↔ files[file.index]? = some file.program := by
  rw [indexed, mem_map]
  constructor
  · rintro ⟨entry, hmem, rfl⟩
    exact mem_zipIdx_iff_getElem?.mp hmem
  · exact fun hmem => ⟨(file.program, file.index), mem_zipIdx_iff_getElem?.mpr hmem, rfl⟩

lemma nodup_indexed (files : List Syntax.Program) : (indexed files).Nodup := by
  have hindices : (indexed files).map (·.index) = List.range' 0 files.length := by
    rw [indexed, map_map]
    exact zipIdx_map_snd 0 files
  exact List.Nodup.of_map (·.index) (hindices ▸ nodup_range')

/-- Files in another order are the files under their new indices. -/
lemma perm_indexed {files files' : List Syntax.Program} {ρ : Renaming}
    (h : ∀ i, files'[ρ.file i]? = files[i]?) :
    ((indexed files).map (·.rename ρ)).Perm (indexed files') := by
  have hinjective : Function.Injective (SourceFile.rename ρ) := by
    rintro ⟨i, program⟩ ⟨j, program'⟩ heq
    obtain ⟨hindex, hprogram⟩ := SourceFile.mk.inj heq
    exact congr (congrArg SourceFile.mk (ρ.file.injective hindex)) hprogram
  refine (perm_ext_iff_of_nodup ((nodup_indexed files).map hinjective)
    (nodup_indexed files')).mpr fun file => ?_
  rw [mem_indexed, mem_map]
  constructor
  · rintro ⟨file, hmem, rfl⟩
    exact (h file.index).trans (mem_indexed.mp hmem)
  · intro hmem
    obtain ⟨index, program⟩ := file
    refine ⟨⟨ρ.file.symm index, program⟩, mem_indexed.mpr ?_, ?_⟩
    · rw [← h, Equiv.apply_symm_apply]
      exact hmem
    · rw [SourceFile.rename, Equiv.apply_symm_apply]

lemma map_package_indexed (files : List Syntax.Program) :
    (indexed files).map (·.program.package) = files.map (·.package) := by
  have hprograms := congrArg (List.map (·.package)) (zipIdx_map_fst 0 files)
  rw [map_map] at hprograms
  rw [indexed, map_map]
  exact hprograms

/-! ### Files in another order -/

section Order

variable {c : Catalog} {ids : Ids} (hd : c.Distinct) (hbelow : c.Below ids)
  {files files' : List Syntax.Program} {ρ : Renaming}
include hd hbelow

lemma twins_openedDraft (hids : ρ.Fixes ids) (hkeeps : ρ.Keeps ids)
    (hnodup : (files.map (·.package)).Nodup) (hperm : files.Perm files') :
    Draft.Twins ids ρ.file ρ (openedDraft c ids (indexed files))
      (openedDraft c ids (indexed files')) := by
  have hnodup' : (files'.map (·.package)).Nodup := (hperm.map _).nodup_iff.mp hnodup
  have hcatalog := catalog_openedDraft c ids (map_package_indexed files ▸ hnodup)
  have hcatalog' := catalog_openedDraft c ids (map_package_indexed files' ▸ hnodup')
  rw [map_package_indexed] at hcatalog hcatalog'
  have hnames : ((files'.map (·.package)).filter (· ∉ c.names)).Perm
      ((files.map (·.package)).filter (· ∉ c.names)) :=
    (hperm.symm.map _).filter _
  have hrename : ((openedDraft c ids (indexed files)).rename ρ).catalog =
      (openedDraft c ids (indexed files)).catalog :=
    hbelow.supported.ensurePackages _ ρ hids
  refine ⟨⟨?_, ?_, ?_, rfl, .refl _, .refl _, rfl, .refl _⟩, hkeeps, hids, rfl,
    (opened_openedDraft ids (indexed files) hd).1, hbelow.supported.openedDraft _, {}, rfl⟩
  · rw [hrename, hcatalog, hcatalog']
    rfl
  · rw [hrename, hcatalog, hcatalog']
    rfl
  · rw [hrename, hcatalog, hcatalog']
    exact (hnames.map _).append_left _

lemma exists_twins_declaredDraft (hids : ρ.Fixes ids) (hkeeps : ρ.Keeps ids)
    (hnodup : (files.map (·.package)).Nodup) (hperm : files.Perm files')
    (hindices : ∀ i, files'[ρ.file i]? = files[i]?) :
    ∃ ρ', Draft.Twins ids ρ.file ρ' (declaredDraft c ids (indexed files))
      (declaredDraft c ids (indexed files')) := by
  obtain ⟨-, -, hfiles⟩ := opened_openedDraft ids (indexed files) hd
  rw [← map_package_indexed] at hnodup
  -- the new indices of the files stay the same along the phases
  have hfile (ρ' : Renaming) (h : ρ'.file = ρ.file) :
      ((indexed files).map (·.rename ρ')).Perm (indexed files') :=
    perm_indexed (h ▸ hindices)
  have hopened := twins_openedDraft hd hbelow hids hkeeps (map_package_indexed files ▸ hnodup) hperm
  obtain ⟨ρ₁, hloads⟩ := hopened.runFiles loadTasks (hfile _ hopened.file) hnodup hfiles
  obtain ⟨ρ₂, hsignatures⟩ := hloads.runFiles signatureTasks (hfile _ hloads.file) hnodup
    (by rw [Phase.names_run]; exact hfiles)
  exact hsignatures.runFiles globalTasks (hfile _ hsignatures.file) hnodup
    (by rw [Phase.names_run, Phase.names_run]; exact hfiles)

end Order

lemma Draft.Same.renamed {ρ : Renaming} {b b' : Build} {pending pending' : List Pending}
    (h : ((b.draft pending).rename ρ).Same (b'.draft pending')) : b.Renamed ρ b' :=
  ⟨h.types, h.containers, h.packages, h.functions, fun package => congrFun h.initializers package,
    h.errors⟩

/-- **The order of files does not matter.** Files of different packages that are bound in another
order, with the natives and nothing else before them, give the same result up to order and ids: the
same packages, bodies, declarations of variables and errors, each under the new index of its file.
The ids of the natives stay. -/
theorem bindFiles_renamed_of_perm {files files' : List Syntax.Program} (hperm : files.Perm files')
    (hnodup : (files.map (·.package)).Nodup) :
    let sys := Catalog.empty.withSys {}
    ∃ ρ : Renaming, (∀ i, files'[ρ.file i]? = files[i]?) ∧ ρ.Fixes sys.2 ∧
      (bindFiles sys.1 sys.2 files).Renamed ρ (bindFiles sys.1 sys.2 files') := by
  intro sys
  obtain ⟨π, hindices⟩ := exists_indices hperm
  obtain ⟨ρ, h⟩ := exists_twins_declaredDraft Session.distinct_withSys below_withSys
    (ρ := ⟨.refl _, .refl _, .refl _, π⟩) ⟨fun _ _ => rfl, fun _ _ => rfl, fun _ _ => rfl⟩
    ⟨fun _ _ => rfl, fun _ _ => rfl, fun _ _ => rfl⟩ hnodup hperm hindices
  obtain ⟨hdraft, hopen⟩ := draft_bindFiles Session.distinct_withSys sys.2 files
  obtain ⟨hdraft', hopen'⟩ := draft_bindFiles Session.distinct_withSys sys.2 files'
  have hfits : ∀ f ∈ (declaredDraft sys.1 sys.2 (indexed files')).pending,
      bodyPhase.Fits (declaredDraft sys.1 sys.2 (indexed files')) f := by
    intro f hf
    refine ⟨hopen'.mem (hopen'.housed f hf), fun σ hσ hfile => ?_⟩
    have hself := congrArg Draft.pending (h.supported σ hσ hfile)
    exact map_eq_self_iff.mp hself f hf
  obtain ⟨ρ', hbodies⟩ := h.run bodyPhase h.same.pending.symm
    (fun f hf => hopen.mem (hopen.housed f hf)) hfits (.inl still_bodyPhase)
  have hsame := hbodies.same
  rw [← hdraft, ← hdraft'] at hsame
  refine ⟨ρ', ?_, hbodies.fixes, hsame.renamed⟩
  rw [hbodies.file]
  exact hindices

/-- Two packages that load each other. The variable of the first one starts with a call of the
second one, whose function calls back and then names a variable that is not there. -/
def lendingPackages : List Syntax.Program :=
  let here : Span := ⟨0, 0⟩
  let string : Syntax.TypeClause := .mk "string" [] here
  let text : Syntax.Expr := .name "text" here
  let call (package : Option Name) (name : String) (argument : Syntax.Expr) : Syntax.Expr :=
    .call package ⟨name, here⟩ [argument] here
  let function (name : String) (body : List Syntax.Stmt) : Syntax.Member :=
    .function ⟨⟨name, here⟩, [⟨⟨"text", here⟩, string⟩], some string, .block body here, here⟩
  [⟨[.package ⟨"lender", here⟩, .load ⟨"borrower", here⟩ false,
      .global ⟨⟨"stock", here⟩, none,
        some (call (some ⟨"borrower", here⟩) "need" (.literal (.string "ink") here)), here⟩,
      function "lend" [.ret (some text) here]]⟩,
    ⟨[.package ⟨"borrower", here⟩, .load ⟨"lender", here⟩ true,
      function "need" [.declaration ⟨⟨"held", here⟩, none, some (call none "lend" text), here⟩,
        .ret (some (.name "hold" ⟨3, 7⟩)) here]]⟩]

theorem lendingPackages_renamed :
    let sys := Catalog.empty.withSys {}
    let bound := bindFiles sys.1 sys.2 lendingPackages
    let swapped := bindFiles sys.1 sys.2 lendingPackages.reverse
    (lendingPackages.map (·.package)).Nodup ∧
      bound.program.functions.map (fun f => (f.symbol.name, f.symbol.id.index, f.file)) =
        [("lend", 10, some 0), ("need", 11, some 1)] ∧
      swapped.program.functions.map (fun f => (f.symbol.name, f.symbol.id.index, f.file)) =
        [("need", 10, some 0), ("lend", 11, some 1)] ∧
      ∃ ρ : Renaming, (∀ i, lendingPackages.reverse[ρ.file i]? = lendingPackages[i]?) ∧
        ρ.Fixes sys.2 ∧ bound.Renamed ρ swapped :=
  ⟨by decide, by decide +kernel, by decide +kernel,
    bindFiles_renamed_of_perm (reverse_perm _).symm (by decide)⟩

end Parcel
