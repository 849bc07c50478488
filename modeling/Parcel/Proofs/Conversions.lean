import Parcel.Proofs.Code.Expressions
import Parcel.Proofs.Places
import Parcel.Proofs.Soundness
import Parcel.Proofs.Typing.Conversion

/-!
# Conversions in programs

Binding puts a conversion into a program only where there is a way between the types, to a type
whose container, if it is one of containers, is known. So a conversion can only fail in a run where
it is written out and its operand is a text; the fault is recoverable, and the run goes on with a
value of the type that was asked for.

## Main results

* `forall_exprs_bindFiles` — what binding makes of expressions holds throughout a program.
* `convertible_bindExpr` — bound expressions are convertible.
* `conversions_agree` — classification, conversion and default values agree.
-/

namespace Parcel

open Code List

variable {file : Option Nat} {p : Program} {stmt : Stmt} {e : Expr} {m : Machine}
  {entry : FunctionSymbol}

/-! ### Expressions of bound programs -/

/-- The expressions of a program to which a declaration is added. -/
lemma mem_exprs_addGlobal {package : String} (h : e ∈ (p.addGlobal package file stmt).exprs) :
    e ∈ p.exprs ∨ e ∈ stmt.exprs := by
  rcases mem_append.mp h with h | h
  · exact .inl (mem_append_left _ h)
  · obtain ⟨group, hgroup, he⟩ := mem_flatMap.mp h
    obtain ⟨decl, hdecl, he⟩ := mem_flatMap.mp he
    rcases mem_addGlobal hgroup hdecl with rfl | ⟨group, hgroup, hdecl⟩
    · exact .inr he
    · exact .inl (mem_append_right _ (mem_flatMap.mpr
        ⟨group, hgroup, mem_flatMap.mpr ⟨decl, hdecl, he⟩⟩))

/-- The expressions of a program to which a function is added. -/
lemma mem_exprs_insert {symbol : FunctionSymbol} {body : Stmt}
    (h : e ∈ (p.insert ⟨symbol, file, .structured body⟩).exprs) : e ∈ p.exprs ∨ e ∈ body.exprs := by
  rcases mem_append.mp h with h | h
  · obtain ⟨g, hg, he⟩ := mem_flatMap.mp h
    rcases mem_insert hg with rfl | hg
    · exact .inr he
    · exact .inl (mem_append_left _ (mem_flatMap.mpr ⟨g, hg, he⟩))
  · refine .inl (mem_append_right _ ?_)
    unfold Program.insert at h
    split at h
    · exact h
    · exact h

section Everywhere

variable {P : Expr → Prop} {catalog : Catalog}
  (hexpr : ∀ (b : Binder) (stx : Syntax.Expr), catalog.SameTypes b.catalog →
    P ((bindExpr stx).run b).1)
  (hconvert : ∀ (e : Expr) (target : Ty) (b : Binder), P e → P ((convert e target false).run b).1)
  (hunresolved : ∀ span, P (.unresolved span))
include hexpr hconvert hunresolved

lemma Made.forall {catalog' : Catalog} (htypes : catalog.SameTypes catalog') (h : Made catalog' e) :
    P e := by
  induction h with
  | unresolved span => exact hunresolved span
  | @bound b _ stx e hcatalog hrun =>
    have hbound := hexpr b stx (hcatalog ▸ htypes)
    rwa [hrun] at hbound
  | @converted e _ target b _ _ hrun ih =>
    have hconverted := hconvert e target b ih
    rwa [hrun] at hconverted

/-- **What binding makes of expressions holds of all expressions of a bound program.** -/
theorem forall_exprs_bindFiles (ids : Ids) (files : List Syntax.Program) :
    catalog.SameTypes (bindFiles catalog ids files).catalog ∧
      ∀ e ∈ (bindFiles catalog ids files).program.exprs, P e := by
  refine bindFiles_induct (I := fun _ b => catalog.SameTypes b.catalog ∧ ∀ e ∈ b.program.exprs, P e)
    catalog ids ⟨⟨rfl, rfl⟩, forall_mem_nil _⟩ ?declares ?function files
  case declares =>
    intro _ b _ b' _ hstep h
    refine ⟨h.1.trans hstep.sameTypes, ?_⟩
    cases hstep with
    | pass | package | load | signature => exact h.2
    | global _ hdecl =>
      intro e he
      rcases mem_exprs_addGlobal he with he | he
      · exact h.2 e he
      · rw [exprs_declare, Option.mem_toList] at he
        exact (made_bindVarDecl hdecl e he).forall hexpr hconvert hunresolved h.1
  case function =>
    intro _ b f _ h
    rw [bindFunction_run]
    refine ⟨h.1, fun e he => ?_⟩
    rcases mem_exprs_insert he with he | he
    · exact h.2 e he
    · obtain ⟨part, hpart, he⟩ := mem_flatMap.mp he
      exact ((ownBound_bodyOf b f part hpart).exprs e he).forall hexpr hconvert hunresolved h.1

end Everywhere

/-! ### Conversions that are bound -/

namespace Code.Expr

/-- If the expression is a conversion, there is a way between the types, and the catalog knows the
container of the target if this is one of containers. -/
def OwnConvertible (catalog : Catalog) : Expr → Prop
  | .conversion operand type _ =>
    (Conversion.classify operand.type type).IsMade ∧ catalog.Registers type
  | _ => True

/-- All conversions inside the expression have a way. -/
def Convertible (catalog : Catalog) (e : Expr) : Prop :=
  ∀ node ∈ e.nodes, node.OwnConvertible catalog

lemma forall_nodesAll {P : Expr → Prop} {es : List Expr} (h : ∀ e ∈ es, ∀ node ∈ e.nodes, P node) :
    ∀ node ∈ nodesAll es, P node := by
  intro node hnode
  obtain ⟨e, he, hnode⟩ := mem_nodesAll.mp hnode
  exact h e he node hnode

lemma Convertible.withSpan {catalog : Catalog} (h : e.Convertible catalog) (span : Span) :
    (e.withSpan span).Convertible catalog := by
  cases e with
  | literal | name | unresolved => exact forall_mem_singleton.mpr trivial
  | conversion =>
    obtain ⟨hown, hoperand⟩ := forall_mem_cons.mp h
    exact forall_mem_cons.mpr ⟨hown, hoperand⟩
  | _ => exact forall_mem_cons.mpr ⟨trivial, (forall_mem_cons.mp h).2⟩

end Code.Expr

section Binding

variable {catalog : Catalog}

lemma convertible_unresolved (span : Span) : (Expr.unresolved span).Convertible catalog :=
  forall_mem_singleton.mpr trivial

/-- A conversion is put in where there is a way. -/
lemma convertible_convert (he : e.Convertible catalog) (target : Ty) (explicit : Bool)
    (htarget : explicit = true → catalog.Registers target) (b : Binder) :
    ((convert e target explicit).run b).1.Convertible catalog := by
  unfold convert
  split
  · exact he
  split
  · exact convertible_unresolved _
  split
  · exact he
  next hway =>
    refine forall_mem_cons.mpr ⟨⟨.inl hway, fun name hname => ?_⟩, he⟩
    -- numbers are no containers
    have hnumeric := (Conversion.isNumeric_of_implicit hway).2
    rw [hname] at hnumeric
    cases hnumeric
  next hway =>
    split
    next hexplicit => exact forall_mem_cons.mpr ⟨⟨.inr hway, htarget hexplicit⟩, he⟩
    · exact convertible_unresolved _
  · exact convertible_unresolved _

/-- **Bound expressions are convertible** if the containers of all named types are known. -/
theorem convertible_bindExpr {b : Binder}
    (htypes : ∀ type ∈ b.catalog.types, catalog.Registers type) (stx : Syntax.Expr) :
    ((bindExpr stx).run b).1.Convertible catalog := by
  suffices hbinds : b.Binds (bindExpr stx) b.errors fun e _ => e.Convertible catalog by
    obtain ⟨e, errs, hrun, he⟩ := hbinds
    have hbound : (bindExpr stx).run b = (e, b.reported errs) := hrun
    rw [hbound]
    exact he
  have converted {e e' : Expr} {target : Ty} {b b' : Binder} (he : e.Convertible catalog)
      (h : (convert e target false).run b = (e', b')) : e'.Convertible catalog := by
    have hconverted := convertible_convert he target false nofun b
    rwa [h] at hconverted
  have both {e e' : Expr} (he : e.Convertible catalog) (he' : e'.Convertible catalog) :
      ∀ node ∈ e.nodes ++ e'.nodes, node.OwnConvertible catalog :=
    forall_mem_append.mpr ⟨he, he'⟩
  apply bindExpr_induct b (P := fun _ _ e _ => e.Convertible catalog)
    (Q := fun _ _ _ es _ => ∀ e ∈ es, e.Convertible catalog)
  case failed => exact fun _ => convertible_unresolved _
  case literal => exact fun _ => forall_mem_singleton.mpr trivial
  case name => exact fun _ => forall_mem_singleton.mpr trivial
  case paren => exact fun h => forall_mem_cons.mpr ⟨trivial, h⟩
  case assign =>
    exact fun ht _ he hconvert => forall_mem_cons.mpr ⟨trivial, both ht (converted he hconvert)⟩
  case unary => exact fun h _ _ => forall_mem_cons.mpr ⟨trivial, h⟩
  case binary =>
    exact fun hl hr _ _ _ hconvert hconvert' =>
      forall_mem_cons.mpr ⟨trivial, both (converted hl hconvert) (converted hr hconvert')⟩
  case conversion =>
    intro package name operand span target errs e errs₁ e' errs' htarget he hconvert
    have hmem : target ∈ b.catalog.types := by
      cases package with
      | some _ => cases htarget
      | none => exact mem_of_find?_eq_some htarget
    have hconverted := convertible_convert he target true (fun _ => htypes target hmem)
      (b.reported errs₁)
    rw [hconvert] at hconverted
    exact hconverted.withSpan span
  case call =>
    exact fun _ _ hes => forall_mem_cons.mpr ⟨trivial, Expr.forall_nodesAll hes⟩
  case methodCall =>
    exact fun hr _ _ _ hes =>
      forall_mem_cons.mpr ⟨trivial, forall_mem_append.mpr ⟨hr, Expr.forall_nodesAll hes⟩⟩
  case makeLength =>
    exact fun _ _ he hconvert => forall_mem_cons.mpr ⟨trivial, converted he hconvert⟩
  case makeElements => exact fun _ _ hes => forall_mem_cons.mpr ⟨trivial, Expr.forall_nodesAll hes⟩
  case index =>
    exact fun ht _ he hconvert => forall_mem_cons.mpr ⟨trivial, both ht (converted he hconvert)⟩
  case nil => exact forall_mem_nil _
  case cons => exact fun he hconvert hes => forall_mem_cons.mpr ⟨converted he hconvert, hes⟩

/-- **Bound programs are convertible.** -/
theorem convertible_bindFiles (htypes : ∀ type ∈ catalog.types, catalog.Registers type) (ids : Ids)
    (files : List Syntax.Program) :
    ∀ e ∈ (bindFiles catalog ids files).program.exprs, e.Convertible catalog := by
  refine (forall_exprs_bindFiles (fun b stx hsame => ?_) (fun e target b he => ?_)
    convertible_unresolved ids files).2
  · exact convertible_bindExpr (hsame.types ▸ htypes) stx
  · exact convertible_convert he target false nofun b

/-- So are they after lowering. -/
lemma convertible_lower (htypes : ∀ type ∈ catalog.types, catalog.Registers type) (ids : Ids)
    (files : List Syntax.Program) :
    let build := bindFiles catalog ids files
    ∀ e ∈ (build.program.lower.run build.ids).1.exprs, e.Convertible catalog := by
  refine forall_exprs_lower_program (fun iterator bound span₁ span₂ span => ?_) (fun span => ?_) _ _
    (convertible_bindFiles htypes ids files)
  · intro node hnode
    simp only [Expr.nodes, singleton_append, mem_cons, not_mem_nil, or_false] at hnode
    rcases hnode with rfl | rfl | rfl <;> trivial
  · exact forall_mem_singleton.mpr trivial

lemma sameTypes_bindFiles (catalog : Catalog) (ids : Ids) (files : List Syntax.Program) :
    catalog.SameTypes (bindFiles catalog ids files).catalog :=
  (forall_exprs_bindFiles (P := fun _ => True) (fun _ _ _ => trivial) (fun _ _ _ _ => trivial)
    (fun _ => trivial) ids files).1

lemma Catalog.SameTypes.registers {c c' : Catalog} (h : c.SameTypes c') {type : Ty}
    (htype : c.Registers type) : c'.Registers type := by
  intro name hname
  have hregistered := htype name hname
  rwa [container?, ← h.containers] at hregistered

lemma Catalog.Grounded.of_sameTypes {c c' : Catalog} (h : c.Grounded) (hsame : c.SameTypes c') :
    c'.Grounded := by
  rwa [Grounded, hsame.containers]

lemma grounded_withSys : (Catalog.empty.withSys {}).1.Grounded :=
  ⟨fun type => if type = builderType then 1 else 0, by decide +kernel⟩

lemma Catalog.Formed.registers {c : Catalog} (h : c.Formed) (hbuilder : c.HasBuilder) :
    ∀ type ∈ c.types, c.Registers type := by
  rintro type htype name rfl
  obtain rfl : name = builderName := h.types _ htype
  obtain ⟨container, hcontainer, -⟩ := hbuilder
  exact Option.isSome_iff_exists.mpr ⟨container, hcontainer⟩

end Binding

/-! ### Conversions in runs -/

/-- An expression that is evaluated in a run stands in the program. -/
lemma Machine.Reaches.exists_expr {fuel : Nat} {sink : Sink} {moment : Moment}
    (h : m.Reaches fuel entry sink moment) {node : Expr} (hactivity : moment.activity = .expr node) :
    ∃ e ∈ m.program.exprs, node ∈ e.nodes := by
  have hlocated : moment.Located m.program := by
    clear hactivity
    induction h with
    | refl => exact trivial
    | tail _ hstarts ih => exact hstarts.located ih
  rw [Moment.Located, hactivity] at hlocated
  obtain ⟨frame, -, code, hcode, hnodes⟩ := hlocated
  obtain ⟨stmt, hstmt, hnode⟩ := mem_flatMap.mp (hnodes (mem_nodes_self node))
  obtain ⟨e, he, hnode⟩ := mem_flatMap.mp hnode
  refine ⟨e, ?_, hnode⟩
  generalize frame.file = file at hcode
  cases hcode with
  | @function f _ hf hbody =>
    refine mem_append_left _ (mem_flatMap.mpr ⟨f, hf, mem_flatMap.mpr ⟨stmt, ?_, he⟩⟩)
    rwa [hbody]
  | @group group hgroup =>
    refine mem_append_right _ (mem_flatMap.mpr ⟨group, hgroup, mem_flatMap.mpr
      ⟨stmt, hstmt, mem_flatMap.mpr ⟨stmt, mem_parts_self stmt, he⟩⟩⟩)

/-- **Conversions agree with their classification.**
* Of every value of the type that is converted: an implicit conversion gives a value of the target.
  So does an explicit one, or, only if the value is a text, it fails.
* The default value of every resolved type whose container is known, if it has one, is of that type.
  Where no container contains itself, a container is made of the default values of all its fields.
* Of every program that is bound where the containers of the named types are known: each conversion
  in it is implicit or explicit, and if its operand has a value of the type of the operand, it gives
  a value of the target or else a recoverable fault, with the default value of the target in its
  place.
* Where only the package `sys` is known, no container contains itself. In every run of a program
  that is bound there without errors, the operand of a conversion has a value of the type of the
  operand if it has any, so the conversion goes on as above. -/
theorem conversions_agree :
    (∀ (heap : Heap) (source target : Ty) (v : Value), heap.typeOf? v = some source →
      (Conversion.classify source target = .implicit →
        ∃ v', heap.convert target v = .ok v' ∧ heap.typeOf? v' = some target) ∧
      (Conversion.classify source target = .explicit →
        (∃ v', heap.convert target v = .ok v' ∧ heap.typeOf? v' = some target) ∨
          source = .string ∧
            ∃ text, heap.convert target v = .error (.conversionFailed text target.name))) ∧
    (∀ (heap : Heap) (catalog : Catalog) (type : Ty), type ≠ .unresolved → catalog.Registers type →
      let made := heap.default catalog type
      heap.Extends made.2 ∧ made.2.typeOf? made.1 = some type ∧
        (catalog.Grounded → ∀ name container, type = .container name →
          catalog.container? type = some container →
          let fields := heap.defaultFields catalog container.fields
          made = fields.2.newContainer type fields.1)) ∧
    (∀ (catalog : Catalog) (ids : Ids) (files : List Syntax.Program),
      (∀ type ∈ catalog.types, catalog.Registers type) →
      let build := bindFiles catalog ids files
      ∀ e ∈ build.program.exprs, ∀ operand type span, .conversion operand type span ∈ e.nodes →
        (Conversion.classify operand.type type = .implicit ∨
          Conversion.classify operand.type type = .explicit) ∧
        ∀ (program : Program) (mode : Mode) (invoke : Invoke) (s t : State) (v : Value),
          let m : Machine := ⟨program, build.catalog, mode⟩
          eval m invoke operand s = .ok v t → t.heap.typeOf? v = some operand.type →
          Concludes m operand.type type span t (eval m invoke (.conversion operand type span) s)) ∧
    ∀ files : List Syntax.Program,
      let sys := Catalog.empty.withSys {}
      let build := bindFiles sys.1 sys.2 files
      build.catalog.Grounded ∧ (build.errors = #[] →
        ∀ (mode : Mode) (entry : FunctionSymbol), build.catalog.HasFunction entry →
        ∀ (fuel : Nat) (sink : Sink) (moment : Moment),
          let m : Machine := ⟨(build.program.lower.run build.ids).1, build.catalog, mode⟩
          m.Reaches fuel entry sink moment →
          ∀ operand type span, moment.activity = .expr (.conversion operand type span) →
            ∀ v t, eval m (call m moment.fuel) operand moment.state = .ok v t →
              t.heap.typeOf? v = some operand.type ∧ Concludes m operand.type type span t
                (eval m (call m moment.fuel) (.conversion operand type span) moment.state)) := by
  refine ⟨fun heap source target v hv => ⟨fun hway => ?_, fun hway => ?_⟩,
    fun heap catalog type htype hregistered => ?_, ?_, ?_⟩
  · refine Heap.exists_convert hv (.inl hway) ?_
    rintro rfl
    cases (Conversion.isNumeric_of_implicit hway).1
  · by_cases hsource : source = .string
    · subst hsource
      cases Heap.shape hv with
      | string text => exact (heap.convert_string text target).imp_right fun h => ⟨rfl, text, h⟩
    · exact .inl (Heap.exists_convert hv (.inr hway) hsource)
  · refine ⟨Heap.extends_defaultTo catalog _ heap type, Heap.typeOf?_default htype hregistered, ?_⟩
    rintro hgrounded name container rfl hcontainer
    exact Heap.default_container hgrounded hcontainer heap
  · intro catalog ids files htypes build e he operand type span hnode
    obtain ⟨hway, hregistered⟩ := convertible_bindFiles htypes ids files e he _ hnode
    refine ⟨hway, ?_⟩
    intro program mode invoke s t v m hoperand hv
    exact concludes_eval hway ((sameTypes_bindFiles catalog ids files).registers hregistered) hoperand hv
      span
  · intro files sys build
    refine ⟨grounded_withSys.of_sameTypes (sameTypes_bindFiles sys.1 sys.2 files), ?_⟩
    intro hclean mode entry hentry fuel sink moment m hreaches operand type span hactivity v t hoperand
    have htyped : build.Typed sys.1 [] := typed_bindFiles formed_withSys sys.2 files
    have hshape : build.Shaped sys.1 sys.2 [] := shaped_bindFiles sys.1 sys.2 files
    have hmachine := htyped.machine hshape formed_withSys bare_withSys provided_withSys hclean mode
    have hentry : (build.runSignatures sys.1).function entry := htyped.functions entry hentry
    obtain ⟨results, hs, hnode⟩ := Machine.Reaches.typed hmachine hentry hreaches
    rw [hactivity] at hnode
    obtain ⟨e, he, hmem⟩ := hreaches.exists_expr hactivity
    have htypes := formed_withSys.registers provided_withSys.builder
    obtain ⟨hway, hregistered⟩ := convertible_lower htypes sys.2 files e he _ hmem
    have hv := ((sound_eval hmachine (sound_call hmachine moment.fuel)
      (HasType.operands hnode operand mem_cons_self) _).ok hs hoperand).2.2
    exact ⟨hv, concludes_eval hway (htyped.sameTypes.registers hregistered) hoperand hv span⟩

/-- A file with a function that gives a text as a builder. -/
def unbuildable : Syntax.Program :=
  let here : Span := ⟨0, 0⟩
  let text : Syntax.Expr := .literal (.string "text") here
  let body : Syntax.Stmt := .ret (some (.call none ⟨builderName, here⟩ [text] here)) here
  ⟨[.function ⟨⟨"main", here⟩, [], some (.mk builderName [] here), body, here⟩]⟩

/-- Whether a statement returns a text as a builder. -/
def Code.Stmt.returnsBuilder : Stmt → Bool
  | .ret (some (.conversion (.literal (.string _) _) type _)) => type = builderType
  | _ => false

lemma exists_of_returnsBuilder (h : stmt.returnsBuilder = true) : ∃ text span₁ span₂,
      stmt = .ret (some (.conversion (.literal (.string text) span₁) builderType span₂)) := by
  unfold Stmt.returnsBuilder at h
  split at h
  · rw [of_decide_eq_true h]
    exact ⟨_, _, _, rfl⟩
  · cases h

/-- In a program without variables of packages, a function without parameters starts its first
statement in a state that has no values but the one that is returned by default. -/
lemma Machine.Reaches.first {code : Array Stmt} (hglobals : m.program.globals = [])
    (hparams : entry.params = []) (hkind : entry.kind = .interpreted)
    (hdepth : 0 < m.mode.maxCallDepth) (hcode : codeOf m.program entry = .ok (file, code))
    (hstmt : code[0]? = some stmt) (fuel : Nat) :
    ∃ s, m.Reaches (fuel + 1) entry {} ⟨fuel, .stmt stmt, s⟩ := by
  have hschedule : initSchedule m entry.package = [] := by simp [initSchedule, hglobals]
  have hrun : runGlobals m (fuel + 1) entry.package (State.initial {}) = .ok () (State.initial {}) := by
    rw [runGlobals_eq, hschedule, hglobals]
    rfl
  have harguments : defaultArguments m entry (State.initial {}) = .ok [] (State.initial {}) := by
    rw [defaultArguments, hparams]
    rfl
  have hcall : m.Reaches (fuel + 1) entry {} ⟨fuel + 1, .call entry [] none, State.initial {}⟩ :=
    .single (.entry hrun harguments)
  have hbody := hcall.tail (.body hkind hdepth hcode (onHeap_run _ _))
  exact ⟨_, hbody.tail (.stmt rfl rfl hstmt)⟩

theorem conversions_agree_unbuildable :
    let sys := Catalog.empty.withSys {}
    let build := bindFiles sys.1 sys.2 [unbuildable]
    let m : Machine := ⟨(build.program.lower.run build.ids).1, build.catalog, {}⟩
    (∃ v, Heap.empty.convert (.integer .long) (.integer (Word.wrap .byte 3)) = .ok v ∧
        Heap.empty.typeOf? v = some (.integer .long)) ∧
      Heap.empty.convert builderType (.string "text") =
        .error (.conversionFailed "text" builderName) ∧
      (∃ container, build.catalog.container? builderType = some container ∧
        let made := Heap.empty.default build.catalog builderType
        let fields := Heap.empty.defaultFields build.catalog container.fields
        made.2.typeOf? made.1 = some builderType ∧ made = fields.2.newContainer builderType fields.1) ∧
      (∃ e ∈ build.program.exprs, ∃ operand span, .conversion operand builderType span ∈ e.nodes ∧
        Conversion.classify operand.type builderType = .explicit) ∧
      build.errors = #[] ∧ ∃ entry, build.catalog.HasFunction entry ∧ ∃ moment operand span v t,
        m.Reaches 1 entry {} moment ∧ moment.activity = .expr (.conversion operand builderType span) ∧
          eval m (call m moment.fuel) operand moment.state = .ok v t ∧
          Concludes m .string builderType span t
            (eval m (call m moment.fuel) (.conversion operand builderType span) moment.state) := by
  have hcode : let sys := Catalog.empty.withSys {}
      let build := bindFiles sys.1 sys.2 [unbuildable]
      let lowered := (build.program.lower.run build.ids).1
      build.errors.size = 0 ∧ lowered.globals.length = 0 ∧
        build.program.functions.any (·.body.stmts.any Stmt.returnsBuilder) = true ∧
        (build.catalog.container? builderType).isSome = true ∧
        ∃ p ∈ build.catalog.packages, ∃ entry ∈ p.functions, entry.params = [] ∧
          entry.kind = .interpreted ∧
          (codeOf lowered entry).toOption.any (·.2[0]?.any Stmt.returnsBuilder) = true := by
    decide +kernel
  generalize [unbuildable] = files at hcode ⊢
  intro sys build m
  obtain ⟨hsize, hlength, hany, hbuilder, p, hp, entry, hentry, hparams, hkind, hcode⟩ := hcode
  have hclean := Array.eq_empty_of_size_eq_zero hsize
  obtain ⟨hvalues, hdefaults, hnodes, hruns⟩ := conversions_agree
  refine ⟨?_, rfl, ?_, ?_, hclean, entry, ⟨p, hp, hentry⟩, ?_⟩
  · exact (hvalues .empty (.integer .byte) (.integer .long) _ rfl).1 (by decide)
  · obtain ⟨container, hcontainer⟩ := Option.isSome_iff_exists.mp hbuilder
    obtain ⟨-, htype, hfields⟩ :=
      hdefaults .empty build.catalog builderType nofun fun _ _ => hbuilder
    exact ⟨container, hcontainer, htype, hfields (hruns files).1 _ container rfl hcontainer⟩
  · obtain ⟨f, hf, hany⟩ := any_eq_true.mp hany
    obtain ⟨stmt, hstmt, hreturns⟩ := any_eq_true.mp hany
    obtain ⟨text, span₁, span₂, rfl⟩ := exists_of_returnsBuilder hreturns
    have he : .conversion (.literal (.string text) span₁) builderType span₂ ∈ build.program.exprs :=
      mem_append_left _ (mem_flatMap.mpr ⟨f, hf, mem_flatMap.mpr
        ⟨_, hstmt, mem_singleton_self _⟩⟩)
    have htypes := formed_withSys.registers provided_withSys.builder
    have hway := (hnodes _ sys.2 files htypes _ he _ _ _ (mem_nodes_self _)).1
    have hnot : ¬ Conversion.classify .string builderType = .implicit := by decide
    exact ⟨_, he, _, _, mem_cons_self, hway.resolve_left hnot⟩
  · obtain ⟨⟨file, code⟩, hfound, hany⟩ := (Option.any_eq_true ..).mp hcode
    obtain ⟨stmt, hstmt, hreturns⟩ := (Option.any_eq_true ..).mp hany
    obtain ⟨text, span₁, span₂, rfl⟩ := exists_of_returnsBuilder hreturns
    have hfound : codeOf m.program entry = .ok (file, code) := by
      cases hcodeOf : codeOf m.program entry with
      | error =>
        rw [hcodeOf] at hfound
        cases hfound
      | ok =>
        rw [hcodeOf] at hfound
        exact congrArg Except.ok (Option.some.inj hfound)
    obtain ⟨s, hreaches⟩ := Machine.Reaches.first (m := m) (eq_nil_of_length_eq_zero hlength)
      hparams hkind (show 0 < 10000 by decide) hfound hstmt 0
    have hexpr := hreaches.tail (.expr (mem_singleton_self _))
    refine ⟨_, .literal (.string text) span₁, span₂, .string text, s, hexpr, rfl, rfl, ?_⟩
    exact ((hruns files).2 hclean {} entry ⟨p, hp, hentry⟩ 1 {} _ hexpr _ _ _ rfl _ _ rfl).2

end Parcel
