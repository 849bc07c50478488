import Parcel.Proofs.Binding.Effect

/-!
# Phases of binding

A phase of binding goes through a list of tasks, each of one package. What a task adds depends on
its own package, on what other packages have in common for all of them, and on the counters; and
where these differ in the ids alone, so does what it adds. Then the order of the tasks does not
matter: another order gives the same draft up to order and ids.
-/

namespace Parcel

open List

/-! ### Renamings and counters -/

namespace Renaming

variable {ρ σ : Renaming} {ids n : Ids}

lemma Fixes.before (h : ρ.Fixes (ids + n)) : ρ.Fixes ids where
  var k hk := h.var k (Nat.lt_of_lt_of_le hk (Nat.le_add_right _ _))
  function k hk := h.function k (Nat.lt_of_lt_of_le hk (Nat.le_add_right _ _))
  label k hk := h.label k (Nat.lt_of_lt_of_le hk (Nat.le_add_right _ _))

lemma Fixes.aligns (h : ρ.Fixes (ids + n)) : ρ.Aligns n ids ids where
  var _ hk := h.var _ (Nat.add_lt_add_left hk _)
  function _ hk := h.function _ (Nat.add_lt_add_left hk _)
  label _ hk := h.label _ (Nat.add_lt_add_left hk _)

lemma Fixes.trans (h : ρ.Fixes ids) (h' : σ.Fixes ids) : (ρ.trans σ).Fixes ids where
  var k hk := (congrArg σ.var (h.var k hk)).trans (h'.var k hk)
  function k hk := (congrArg σ.function (h.function k hk)).trans (h'.function k hk)
  label k hk := (congrArg σ.label (h.label k hk)).trans (h'.label k hk)

lemma Keeps.after (h : ρ.Keeps ids) : ρ.Keeps (ids + n) where
  var k hk := h.var k (Nat.le_trans (Nat.le_add_right _ _) hk)
  function k hk := h.function k (Nat.le_trans (Nat.le_add_right _ _) hk)
  label k hk := h.label k (Nat.le_trans (Nat.le_add_right _ _) hk)

lemma Keeps.aligns (h : ρ.Keeps ids) : ρ.Aligns n ids ids where
  var _ _ := h.var _ (Nat.le_add_right _ _)
  function _ _ := h.function _ (Nat.le_add_right _ _)
  label _ _ := h.label _ (Nat.le_add_right _ _)

lemma Keeps.trans (h : ρ.Keeps ids) (h' : σ.Keeps ids) : (ρ.trans σ).Keeps ids where
  var k hk := (congrArg σ.var (h.var k hk)).trans (h'.var k hk)
  function k hk := (congrArg σ.function (h.function k hk)).trans (h'.function k hk)
  label k hk := (congrArg σ.label (h.label k hk)).trans (h'.label k hk)

lemma fixes_refl (ids : Ids) : Renaming.refl.Fixes ids :=
  ⟨fun _ _ => rfl, fun _ _ => rfl, fun _ _ => rfl⟩

lemma keeps_refl (ids : Ids) : Renaming.refl.Keeps ids :=
  ⟨fun _ _ => rfl, fun _ _ => rfl, fun _ _ => rfl⟩

end Renaming

/-- Two blocks of numbers that follow one another change places. -/
def swapBlocks (start first second : Nat) : Equiv.Perm Nat where
  toFun n :=
    if n < start then n else if n < start + first then n + second
    else if n < start + first + second then n - first else n
  invFun n :=
    if n < start then n else if n < start + second then n + first
    else if n < start + second + first then n - second else n
  left_inv n := by
    dsimp only
    split_ifs <;> omega
  right_inv n := by
    dsimp only
    split_ifs <;> omega

section SwapBlocks

variable {start first second n : Nat}

lemma swapBlocks_before (h : n < start) : swapBlocks start first second n = n := by
  simp only [swapBlocks, Equiv.coe_fn_mk, if_pos h]

lemma swapBlocks_after (h : start + first + second ≤ n) :
    swapBlocks start first second n = n := by
  simp only [swapBlocks, Equiv.coe_fn_mk]
  split_ifs <;> omega

lemma swapBlocks_first (h : n < first) :
    swapBlocks start first second (start + n) = start + second + n := by
  simp only [swapBlocks, Equiv.coe_fn_mk]
  split_ifs <;> omega

lemma swapBlocks_second (h : n < second) :
    swapBlocks start first second (start + first + n) = start + n := by
  simp only [swapBlocks, Equiv.coe_fn_mk]
  split_ifs <;> omega

end SwapBlocks

namespace Ids

variable (ids n m : Ids)

/-- The renaming for two tasks that change places: the ids that the first takes go after those that
the second takes. -/
def exchange : Renaming :=
  ⟨swapBlocks ids.nextVar n.nextVar m.nextVar,
    swapBlocks ids.nextFunction n.nextFunction m.nextFunction,
    swapBlocks ids.nextLabel n.nextLabel m.nextLabel, .refl _⟩

lemma fixes_exchange : (ids.exchange n m).Fixes ids :=
  ⟨fun _ => swapBlocks_before, fun _ => swapBlocks_before, fun _ => swapBlocks_before⟩

lemma keeps_exchange : (ids.exchange n m).Keeps (ids + n + m) :=
  ⟨fun _ => swapBlocks_after, fun _ => swapBlocks_after, fun _ => swapBlocks_after⟩

lemma aligns_exchange_first : (ids.exchange n m).Aligns n ids (ids + m) :=
  ⟨fun _ => swapBlocks_first, fun _ => swapBlocks_first, fun _ => swapBlocks_first⟩

lemma aligns_exchange_second : (ids.exchange n m).Aligns m (ids + n) ids :=
  ⟨fun _ => swapBlocks_second, fun _ => swapBlocks_second, fun _ => swapBlocks_second⟩

end Ids

/-! ### What a task can tell apart -/

/-- Catalogs that a task of a package cannot tell apart but for the ids. The functions of all
packages count only for a task that looks at the catalog as a `whole`. -/
structure Catalog.Sees (whole : Bool) (ρ : Renaming) (package : String) (c c' : Catalog) :
    Prop where
  present : package ∈ c.names
  names : c'.names.Perm c.names
  types : c'.types = c.types
  containers : c'.containers = c.containers.map (·.rename ρ)
  own : c'.package? package = (c.package? package).map (·.rename ρ)
  functions : whole = true → ∀ other, (c'.package? other).map (·.table) =
    (c.package? other).map (·.table.rename ρ)

namespace Catalog

variable {whole : Bool} {ρ : Renaming} {package : String} {c c' : Catalog}

lemma Sees.matches (h : c.Sees true ρ package c') : c.Matches ρ c' where
  type? name := by rw [type?, h.types, type?]
  similarType name := by rw [h.types]
  container? type := by
    rw [container?, h.containers]
    exact find?_map
  functions := h.functions rfl

lemma names_rename (c : Catalog) (ρ : Renaming) :
    (c.rename ρ).names = c.names :=
  map_map

lemma table_grow {α : Type} (f : FunctionTable → α) (c : Catalog) (package : String)
    (δ : Growth) (other : String) :
    ((c.grow package δ).package? other).map (fun p => f p.table) =
      (c.package? other).map fun p =>
        f (if other = package then p.table.append δ.functions else p.table) := by
  rw [package?_grow, Option.map_map]
  congr 1
  funext p
  rw [Function.comp_apply]
  split <;> rfl

lemma table_grow_of_nil {α : Type} (f : FunctionTable → α) (c : Catalog) (package : String)
    {δ : Growth} (h : δ.functions = []) (other : String) :
    ((c.grow package δ).package? other).map (fun p => f p.table) =
      (c.package? other).map fun p => f p.table := by
  rw [table_grow]
  simp only [h, FunctionTable.append_nil, ite_self]

end Catalog

/-- Drafts that are the same up to order and ids cannot be told apart but for the ids. -/
lemma Draft.Same.sees {whole : Bool} {ρ : Renaming} {package : String} {d d' : Draft}
    (h : (d.rename ρ).Same d') (hd : d.catalog.Distinct)
    (hmem : package ∈ d.catalog.names) :
    d.catalog.Sees whole ρ package d'.catalog := by
  have hdistinct : (d.catalog.rename ρ).Distinct := by
    rw [Catalog.Distinct, Catalog.names_rename]
    exact hd
  have hlookup (other : String) :
      d'.catalog.package? other = (d.catalog.package? other).map (·.rename ρ) := by
    rw [Catalog.package?, find?_key_eq_of_perm hdistinct h.packages]
    exact Catalog.package?_rename d.catalog ρ other
  refine ⟨hmem, ?_, h.types, h.containers, hlookup package, fun _ other => ?_⟩
  · have hnames := h.names
    rwa [show (d.rename ρ).catalog.names = d.catalog.names from
      Catalog.names_rename d.catalog ρ] at hnames
  · rw [hlookup]
    cases d.catalog.package? other <;> rfl

namespace Catalog

variable {whole : Bool} {ρ : Renaming} {package : String} {c c' : Catalog}

lemma Sees.grow (h : c.Sees whole ρ package c') (δ : Growth) :
    (c.grow package δ).Sees whole ρ package (c'.grow package (δ.rename ρ)) := by
  refine ⟨?_, ?_, h.types, h.containers, ?_, fun hwhole other => ?_⟩
  · rw [names_grow]
    exact h.present
  · rw [names_grow, names_grow]
    exact h.names
  · simp only [package?_grow, h.own, if_true, Option.map_map]
    refine congrArg (Option.map · _) (funext fun p => ?_)
    exact (p.rename_grow ρ δ).symm
  · have happend := congrArg (Option.map fun t =>
      if other = package then t.append (δ.rename ρ).functions else t) (h.functions hwhole other)
    rw [Option.map_map, Option.map_map] at happend
    rw [table_grow (·.rename ρ)]
    refine (table_grow id c' package _ other).trans (happend.trans ?_)
    congr 1
    funext p
    rw [Function.comp_apply]
    split
    · exact (p.table.rename_append δ.functions ρ).symm
    · rfl

/-- Another package may grow on the one side, though not by functions if the whole counts. -/
lemma Sees.grow_left (h : c.Sees whole ρ package c') {other : String} {δ : Growth}
    (hother : δ = {} ∨ package ≠ other) (hfunctions : whole = true → δ.functions = []) :
    (c.grow other δ).Sees whole ρ package c' := by
  rcases hother with rfl | hne
  · rw [grow_nil]
    exact h
  · refine ⟨?_, ?_, h.types, h.containers, ?_, fun hwhole r => ?_⟩
    · rw [names_grow]
      exact h.present
    · rw [names_grow]
      exact h.names
    · rw [package?_grow_of_ne hne]
      exact h.own
    · rw [table_grow_of_nil (·.rename ρ) c other (hfunctions hwhole)]
      exact h.functions hwhole r

/-- The same on the other side. -/
lemma Sees.grow_right (h : c.Sees whole ρ package c') {other : String} {δ : Growth}
    (hother : δ = {} ∨ package ≠ other) (hfunctions : whole = true → δ.functions = []) :
    c.Sees whole ρ package (c'.grow other δ) := by
  rcases hother with rfl | hne
  · rw [grow_nil]
    exact h
  · refine ⟨h.present, ?_, h.types, h.containers, ?_, fun hwhole r => ?_⟩
    · rw [names_grow]
      exact h.names
    · rw [package?_grow_of_ne hne]
      exact h.own
    · exact (table_grow_of_nil id c' other (hfunctions hwhole) r).trans (h.functions hwhole r)

end Catalog

/-! ### Tasks -/

/-- What is added where a catalog and counters are found. -/
abbrev Task := Catalog → Ids → Effect

/-- The second task adds under new ids what the first does, where they cannot tell apart what they
find but for the ids. -/
def Task.Matches (whole : Bool) (ρ : Renaming) (package : String) (t t' : Task) : Prop :=
  ∀ c c' ids ids', c.Sees whole ρ package c' → ρ.Aligns (t c ids).taken ids ids' →
    t' c' ids' = (t c ids).rename ρ

/-- Tasks of one package, one after another. -/
def Task.each {τ : Type} (package : String) (task : τ → Task) : List τ → Task
  | [], _, _ => {}
  | a :: l, c, ids =>
    let e := task a c ids
    e.append (Task.each package task l (c.grow package e.growth) (ids + e.taken))

lemma matches_each {τ : Type} {whole : Bool} {ρ : Renaming} {package : String}
    {task task' : τ → Task} (l : List τ)
    (h : ∀ a ∈ l, Task.Matches whole ρ package (task a) (task' a)) :
    Task.Matches whole ρ package (Task.each package task l) (Task.each package task' l) := by
  induction l with
  | nil => exact fun _ _ _ _ _ _ => rfl
  | cons a l ih =>
    intro c c' ids ids' hsees haligns
    have hfirst := h a mem_cons_self c c' ids ids' hsees haligns.left
    have hrest := ih (fun b hb => h b (mem_cons_of_mem _ hb)) _ _ _ _ (hsees.grow _)
      haligns.right
    simp only [Task.each, hfirst, Effect.rename_append]
    exact congrArg _ hrest

lemma Draft.apply_each {τ : Type} (package : String) (task : τ → Task) (l : List τ) (d : Draft) :
    d.apply package (Task.each package task l d.catalog d.ids) =
      l.foldl (fun d a => d.apply package (task a d.catalog d.ids)) d := by
  induction l generalizing d with
  | nil => exact d.apply_nil package
  | cons a l ih =>
    rw [foldl_cons, ← ih, Draft.apply_append]
    rfl

/-! ### Phases -/

/-- A phase of binding. Its tasks only tell apart what `Catalog.Sees` tells apart; and where they
look at the functions of all packages, they add none. -/
structure Phase (τ : Type) where
  package : τ → String
  task : τ → Task
  rename : Renaming → τ → τ
  whole : Bool
  package_rename : ∀ ρ a, package (rename ρ a) = package a
  matches_rename : ∀ ρ a, Task.Matches whole ρ (package a) (task a) (task (rename ρ a))
  functions_eq_nil : whole = true → ∀ a c ids, (task a c ids).growth.functions = []

/-- A draft that only has ids below its counters: it stays as it is whatever becomes of the
others. -/
def Draft.Supported (d : Draft) : Prop :=
  ∀ σ : Renaming, σ.Fixes d.ids → σ.file = Equiv.refl Nat → d.rename σ = d

namespace Phase

variable {τ : Type} (s : Phase τ)

variable {ρ : Renaming} {l l' : List τ}

/-- The draft after a task. -/
def step (d : Draft) (a : τ) : Draft :=
  d.apply (s.package a) (s.task a d.catalog d.ids)

/-- The draft after tasks in order. -/
def run (l : List τ) (d : Draft) : Draft :=
  l.foldl s.step d

/-- No package grows in this phase. -/
def Still : Prop :=
  ∀ a c ids, (s.task a c ids).growth = {}

/-- A task of a package that the draft has, with no ids from its counters on. -/
structure Fits (d : Draft) (a : τ) : Prop where
  present : s.package a ∈ d.catalog.names
  supported : ∀ σ : Renaming, σ.Fixes d.ids → σ.file = Equiv.refl Nat → s.rename σ a = a

variable {s} {d d' : Draft} {a b : τ}

lemma distinct_step (h : d.catalog.Distinct) (a : τ) : (s.step d a).catalog.Distinct :=
  h.grow _ _

lemma names_step (d : Draft) (a : τ) :
    (s.step d a).catalog.names = d.catalog.names :=
  Catalog.names_grow _ _ _

lemma Fits.step (h : s.Fits d a) (b : τ) : s.Fits (s.step d b) a where
  present := names_step (s := s) d b ▸ h.present
  supported σ hσ := h.supported σ hσ.before

/-- A task takes a draft without ids from its counters on to one without. -/
lemma supported_step (hd : d.catalog.Distinct) (h : d.Supported) (ha : s.Fits d a) :
    (s.step d a).Supported := by
  intro σ hσ hfile
  have hsame : (d.rename σ).Same d := by
    rw [h σ hσ.before hfile]
    exact .refl d
  have heffect := s.matches_rename σ a _ _ _ _ (hsame.sees hd ha.present) hσ.aligns
  rw [ha.supported σ hσ.before hfile] at heffect
  rw [step, Draft.rename_apply, h σ hσ.before hfile, ← heffect]

lemma names_run (l : List τ) (d : Draft) :
    (s.run l d).catalog.names = d.catalog.names := by
  induction l generalizing d with
  | nil => rfl
  | cons a l ih => exact (ih (s.step d a)).trans (names_step d a)

lemma distinct_run (h : d.catalog.Distinct) (l : List τ) : (s.run l d).catalog.Distinct := by
  rw [Catalog.Distinct, names_run]
  exact h

lemma ids_run (l : List τ) (d : Draft) : ∃ n, (s.run l d).ids = d.ids + n := by
  induction l generalizing d with
  | nil => exact ⟨{}, rfl⟩
  | cons a l ih =>
    obtain ⟨n, hn⟩ := ih (s.step d a)
    exact ⟨_, hn.trans (Ids.add_assoc _ _ _)⟩

lemma supported_run (l : List τ) (hd : d.catalog.Distinct) (h : d.Supported)
    (hl : ∀ a ∈ l, s.Fits d a) : (s.run l d).Supported := by
  induction l generalizing d with
  | nil => exact h
  | cons a l ih =>
    exact ih (distinct_step hd a) (supported_step hd h (hl a mem_cons_self))
      fun b hb => (hl b (mem_cons_of_mem _ hb)).step a

lemma same_step (hd : d.catalog.Distinct) (h : (d.rename ρ).Same d') (hkeeps : ρ.Keeps d.ids)
    (ha : s.package a ∈ d.catalog.names) :
    ((s.step d a).rename ρ).Same (s.step d' (s.rename ρ a)) := by
  have hids : d'.ids = d.ids := h.ids
  have heffect := s.matches_rename ρ a _ _ d.ids d.ids (h.sees hd ha) hkeeps.aligns
  rw [step, step, Draft.rename_apply, s.package_rename, hids, heffect]
  exact h.apply _ _

/-- **A phase on drafts that are the same up to order and ids** leads to such drafts. -/
theorem same_run (l : List τ) (hd : d.catalog.Distinct) (h : (d.rename ρ).Same d')
    (hkeeps : ρ.Keeps d.ids) (hl : ∀ a ∈ l, s.package a ∈ d.catalog.names) :
    ((s.run l d).rename ρ).Same (s.run (l.map (s.rename ρ)) d') ∧ ρ.Keeps (s.run l d).ids := by
  induction l generalizing d d' with
  | nil => exact ⟨h, hkeeps⟩
  | cons a l ih =>
    refine ih (distinct_step hd a) (same_step hd h hkeeps (hl a mem_cons_self)) hkeeps.after
      fun b hb => ?_
    rw [names_step]
    exact hl b (mem_cons_of_mem _ hb)

/-- **Two tasks change places** if they are of different packages or no package grows. -/
theorem exists_exchange (hd : d.catalog.Distinct) (h : d.Supported) (ha : s.Fits d a)
    (hb : s.Fits d b) (hindependent : s.Still ∨ s.package a ≠ s.package b) :
    ∃ σ : Renaming, σ.Fixes d.ids ∧ σ.file = Equiv.refl Nat ∧
      σ.Keeps (s.step (s.step d a) b).ids ∧
      ((s.step (s.step d a) b).rename σ).Same (s.step (s.step d b) a) := by
  obtain ⟨e, he⟩ : ∃ e, e = s.task a d.catalog d.ids := ⟨_, rfl⟩
  obtain ⟨f, hf⟩ : ∃ f, f = s.task b (s.step d a).catalog (s.step d a).ids := ⟨_, rfl⟩
  obtain ⟨σ, hσ⟩ : ∃ σ, σ = d.ids.exchange e.taken f.taken := ⟨_, rfl⟩
  have hfixes : σ.Fixes d.ids := hσ ▸ d.ids.fixes_exchange _ _
  have hfile : σ.file = Equiv.refl Nat := by rw [hσ]; rfl
  have hsame : (d.rename σ).Same d := by
    rw [h σ hfixes hfile]
    exact .refl d
  have hgrowth : ∀ t c ids, (s.task t c ids).growth = {} ∨ s.package a ≠ s.package b :=
    fun t c ids => hindependent.imp_left fun hstill => hstill t c ids
  have hfunctions : ∀ t c ids, s.whole = true → (s.task t c ids).growth.functions = [] :=
    fun t c ids hwhole => s.functions_eq_nil hwhole t c ids
  -- the second task comes first: it does not see what the first one adds
  have hsecond : s.task b d.catalog d.ids = f.rename σ := by
    have hsees : (s.step d a).catalog.Sees s.whole σ (s.package b) d.catalog :=
      (hsame.sees hd hb.present).grow_left ((hgrowth _ _ _).imp_right Ne.symm) (hfunctions _ _ _)
    have heffect := s.matches_rename σ b _ _ (s.step d a).ids d.ids hsees
      (by rw [← hf, hσ, step, ← he]; exact d.ids.aligns_exchange_second _ _)
    rwa [hb.supported σ hfixes hfile, ← hf] at heffect
  -- and the first one does not see what the second one has added
  have hfirst : s.task a (s.step d b).catalog (s.step d b).ids = e.rename σ := by
    have hsees : d.catalog.Sees s.whole σ (s.package a) (s.step d b).catalog :=
      (hsame.sees hd ha.present).grow_right (hgrowth _ _ _) (hfunctions _ _ _)
    have heffect := s.matches_rename σ a _ _ d.ids (s.step d b).ids hsees
      (by rw [← he, hσ, step, hsecond]; exact d.ids.aligns_exchange_first _ _)
    rwa [ha.supported σ hfixes hfile, ← he] at heffect
  have hab : s.step (s.step d a) b = (d.apply (s.package a) e).apply (s.package b) f := by
    rw [hf, he]
    rfl
  have hba : s.step (s.step d b) a =
      (d.apply (s.package b) (f.rename σ)).apply (s.package a) (e.rename σ) := by
    rw [← hfirst, ← hsecond]
    rfl
  refine ⟨σ, hfixes, hfile, ?_, ?_⟩
  · rw [hab, hσ]
    exact d.ids.keeps_exchange _ _
  · rw [hab, hba, Draft.rename_apply, Draft.rename_apply, h σ hfixes hfile]
    refine Draft.same_exchange (hindependent.imp_left fun hstill => ?_)
    have hnil (e : Effect) (he : e.growth = {}) : (e.rename σ).growth = {} := by
      rw [Effect.rename, he]
      rfl
    exact ⟨hnil e (he ▸ hstill _ _ _), hnil f (hf ▸ hstill _ _ _)⟩

/-- **The order of the tasks does not matter** to a phase if they are of different packages or no
package grows: in another order they lead to the same draft up to order and ids. -/
theorem exists_run_perm (hperm : l.Perm l') (hd : d.catalog.Distinct) (h : d.Supported)
    (hl : ∀ a ∈ l, s.Fits d a) (hindependent : s.Still ∨ (l.map s.package).Nodup) :
    ∃ σ : Renaming, σ.Fixes d.ids ∧ σ.file = Equiv.refl Nat ∧ σ.Keeps (s.run l d).ids ∧
      ((s.run l d).rename σ).Same (s.run l' d) := by
  induction hperm generalizing d with
  | nil =>
    refine ⟨.refl, Renaming.fixes_refl _, rfl, Renaming.keeps_refl _, ?_⟩
    show (d.rename .refl).Same d
    rw [h .refl (Renaming.fixes_refl _) rfl]
    exact .refl d
  | cons a _ ih =>
    obtain ⟨σ, hfixes, hfile, hkeeps, hsame⟩ := ih (distinct_step hd a)
      (supported_step hd h (hl a mem_cons_self))
      (fun b hb => (hl b (mem_cons_of_mem _ hb)).step a)
      (hindependent.imp_right fun hnodup => (nodup_cons.mp hnodup).2)
    exact ⟨σ, hfixes.before, hfile, hkeeps, hsame⟩
  | swap a b l =>
    have ha := hl a (mem_cons_of_mem _ mem_cons_self)
    have hb := hl b mem_cons_self
    have hne : s.Still ∨ s.package b ≠ s.package a := hindependent.imp_right fun hnodup heq =>
      (nodup_cons.mp hnodup).1 (heq ▸ mem_cons_self)
    obtain ⟨σ, hfixes, hfile, hkeeps, hsame⟩ := exists_exchange hd h hb ha hne
    -- the tasks that follow have no ids that change
    have hrest : l.map (s.rename σ) = l := map_eq_self_iff.mpr fun c hc =>
      (hl c (mem_cons_of_mem _ (mem_cons_of_mem _ hc))).supported σ hfixes hfile
    have hrun := same_run l (distinct_step (distinct_step hd b) a) hsame hkeeps fun c hc => by
      rw [names_step, names_step]
      exact (hl c (mem_cons_of_mem _ (mem_cons_of_mem _ hc))).present
    rw [hrest] at hrun
    exact ⟨σ, hfixes, hfile, hrun.2, hrun.1⟩
  | trans hperm₁ hperm₂ ih₁ ih₂ =>
    obtain ⟨σ, hfixes, hfile, hkeeps, hsame⟩ := ih₁ hd h hl hindependent
    obtain ⟨σ', hfixes', hfile', hkeeps', hsame'⟩ := ih₂ hd h
      (fun a ha => hl a (hperm₁.mem_iff.mpr ha))
      (hindependent.imp_right fun hnodup => (hperm₁.map s.package).nodup_iff.mp hnodup)
    refine ⟨σ.trans σ', hfixes.trans hfixes', ?_, hkeeps.trans ?_, ?_⟩
    · rw [Renaming.trans, hfile, hfile']
      rfl
    · have hids := hsame.ids
      exact hids ▸ hkeeps'
    · rw [Draft.rename_trans]
      exact (hsame.rename σ').trans hsame'

lemma exists_run_rename (hperm : (l.map (s.rename ρ)).Perm l') (hd : d.catalog.Distinct)
    (hd' : d'.catalog.Distinct) (h : (d.rename ρ).Same d') (hkeeps : ρ.Keeps d.ids)
    (hsupported : d'.Supported) (hl : ∀ a ∈ l, s.package a ∈ d.catalog.names)
    (hl' : ∀ a ∈ l', s.Fits d' a) (hindependent : s.Still ∨ (l'.map s.package).Nodup) :
    ∃ σ : Renaming, σ.Fixes d'.ids ∧ σ.file = Equiv.refl Nat ∧ (ρ.trans σ).Keeps (s.run l d).ids ∧
      ((s.run l d).rename (ρ.trans σ)).Same (s.run l' d') := by
  obtain ⟨hsame, hkeeps⟩ := same_run l hd h hkeeps hl
  obtain ⟨σ, hfixes, hfile, hkeeps', hsame'⟩ := exists_run_perm hperm hd' hsupported
    (fun a ha => hl' a (hperm.mem_iff.mp ha))
    (hindependent.imp_right fun hnodup => (hperm.map s.package).nodup_iff.mpr hnodup)
  refine ⟨σ, hfixes, hfile, hkeeps.trans ?_, ?_⟩
  · have hids := hsame.ids
    exact hids ▸ hkeeps'
  · rw [Draft.rename_trans]
    exact (hsame.rename σ).trans hsame'

end Phase

end Parcel
