import Mathlib.Data.List.Nodup
import Parcel.Proofs.Direct.Lowered

/-!
# Calls in both executions

A call of a function of a lowered program does what the direct execution of its structured body
does. By induction on the fuel of direct execution: the calls in a body have less fuel than the
body.
-/

namespace Parcel

open Code List

open Exec

/-! ### Jumps of direct execution -/

def Exec.JumpsTo (allowed : Label → Prop) (action : Exec Flow) : Prop :=
  ∀ s s' label, action s = .ok (.jump label) s' → allowed label

section Jumps

variable {α : Type} {allowed allowed' : Label → Prop} {action first second : Exec Flow}

lemma Exec.JumpsTo.mono (h : JumpsTo allowed action) (hallowed : ∀ label, allowed label →
    allowed' label) : JumpsTo allowed' action :=
  fun s s' label heq => hallowed label (h s s' label heq)

lemma jumpsTo_pure {flow : Flow} (h : ∀ label, flow ≠ .jump label) :
    JumpsTo allowed (pure flow) := by
  intro s s' label heq
  cases heq
  exact absurd rfl (h label)

lemma jumpsTo_bind {c : Exec α} {next : α → Exec Flow} (h : ∀ a, JumpsTo allowed (next a)) :
    JumpsTo allowed (c >>= next) := by
  intro s s' label heq
  obtain ⟨a, s₁, -, hnext⟩ := exists_of_exec_bind_ok heq
  exact h a s₁ s' label hnext

lemma Exec.JumpsTo.andThen (h₁ : JumpsTo allowed first) (h₂ : JumpsTo allowed second) :
    JumpsTo allowed (andThen first second) := by
  intro s s' label heq
  obtain ⟨flow, s₁, hfirst, hnext⟩ := exists_of_exec_bind_ok heq
  cases flow with
  | normal => exact h₂ s₁ s' label hnext
  | jump =>
    cases hnext
    exact h₁ s s' label hfirst
  | returned => cases hnext

lemma Exec.JumpsTo.catching {caught : Label}
    (h : JumpsTo (fun label => label = caught ∨ allowed label) action) :
    JumpsTo allowed (catching caught action) := by
  intro s s' label heq
  obtain ⟨flow, s₁, haction, hnext⟩ := exists_of_exec_bind_ok heq
  cases flow with
  | normal | returned => cases hnext
  | jump target =>
    dsimp only at hnext
    by_cases hcaught : target = caught
    · rw [if_pos hcaught] at hnext
      cases hnext
    · rw [if_neg hcaught] at hnext
      cases hnext
      exact (h s s' label haction).resolve_left hcaught

lemma Exec.JumpsTo.scope (vars : List Var) (h : JumpsTo allowed action) :
    JumpsTo allowed (scope vars action) :=
  h.andThen (jumpsTo_bind fun _ => jumpsTo_pure nofun)

lemma Exec.JumpsTo.rounds (test : Exec Bool) (h : JumpsTo allowed action) (fuel : Nat) :
    JumpsTo allowed (rounds test action fuel) := by
  induction fuel with
  | zero => exact fun s s' label heq => nomatch heq
  | succ fuel ih =>
    refine jumpsTo_bind fun taken => ?_
    cases taken with
    | true => exact h.andThen ih
    | false => exact jumpsTo_pure nofun

lemma Exec.JumpsTo.loop {labels : LoopLabels}
    (h : JumpsTo (LeavesTo (some labels)) action) :
    JumpsTo (fun label => label = labels.onBreak ∨ allowed label)
      (Exec.catching labels.onContinue action) := by
  refine JumpsTo.catching (h.mono fun label hlabel => ?_)
  rcases leavesTo_some.mp hlabel with hbreak | hcontinue
  · exact .inr (.inl hbreak)
  · exact .inl hcontinue

end Jumps

/-- **A structured statement jumps only to the ends of the loop around it.** -/
theorem jumpsTo_exec (m : Machine) (invoke : Invoke) (fuel : Nat) {loops : Option LoopLabels}
    {stmt : Stmt} (h : Structured loops stmt) :
    JumpsTo (LeavesTo loops) (stmt.exec m invoke fuel) := by
  have counting (loops : Option LoopLabels) (iterator : Var) (lower upper : Expr)
      (own : List Var) (body : Exec Flow) (labels : LoopLabels)
      (ih : JumpsTo (LeavesTo (some labels)) body) : JumpsTo (LeavesTo loops)
        (counting m invoke fuel iterator lower upper own body labels) := by
    refine jumpsTo_bind fun goal => jumpsTo_bind fun _ => JumpsTo.scope _ (JumpsTo.catching ?_)
    refine JumpsTo.rounds _ (JumpsTo.scope _ (ih.loop.andThen ?_)) fuel
    exact jumpsTo_bind fun _ => jumpsTo_pure nofun
  induction h with
  | declare | expr | ret => exact jumpsTo_bind fun _ => jumpsTo_pure nofun
  | onBreak =>
    rintro s s' label ⟨⟩
    exact leavesTo_some.mpr (.inl rfl)
  | onContinue =>
    rintro s s' label ⟨⟩
    exact leavesTo_some.mpr (.inr rfl)
  | @block loops stmts hstmts ih =>
    refine JumpsTo.scope _ ?_
    clear hstmts
    induction stmts with
    | nil => exact jumpsTo_pure nofun
    | cons stmt stmts ihs =>
      rw [forall_mem_cons] at ih
      exact ih.1.andThen (ihs ih.2)
  | ifThen condition _ ih =>
    refine JumpsTo.scope _ (jumpsTo_bind fun taken => ?_)
    cases taken with
    | true => exact ih
    | false => exact jumpsTo_pure nofun
  | ifElse condition _ _ ih₁ ih₂ =>
    refine JumpsTo.scope _ (jumpsTo_bind fun taken => ?_)
    cases taken with
    | true => exact ih₁
    | false => exact ih₂
  | whileLoop condition _ ih =>
    exact JumpsTo.scope _ (JumpsTo.catching (JumpsTo.rounds _ ih.loop fuel))
  | forLoop condition _ _ _ ihi iha ihb =>
    refine JumpsTo.scope _ (ihi.andThen (JumpsTo.catching (JumpsTo.rounds _ ?_ fuel)))
    exact JumpsTo.scope _ (ihb.loop.andThen (iha.mono fun _ => .inr))
  | fromTo iterator lower upper _ ih => exact counting _ iterator lower upper _ _ _ ih
  | loop iterator count _ ih => exact counting _ iterator _ count _ _ _ ih

/-! ### Bodies -/

/-- The flat code of a structured body whose variables have ids below a limit. -/
structure FlatOf (limit : Nat) (body : Stmt) (code : Array Stmt) : Prop where
  structured : Structured none body
  vars : ∀ v ∈ body.vars, v.id.index < limit
  accesses : ∀ a ∈ body.accesses, ∀ v ∈ a.var?, v.isGlobal = true ∨ v.id.index < limit
  lowered : ∃ ids : Ids, limit ≤ ids.nextVar ∧
    code = (flatten (body.lower.run ids).1).toArray
  labels : (Body.lowered code).placed.Nodup

lemma position_of_nodup {code : Array Stmt} (h : (Body.lowered code).placed.Nodup)
    {q : Nat} {label : Label} (hq : code[q]? = some (.label label)) :
    (labelPositions code)[label.index]? = some q := by
  obtain ⟨p, hp, hposition⟩ := position_of_label (Array.mem_toList_iff.mpr (Array.mem_of_getElem? hq))
  have hpairwise := pairwise_iff_getElem.mp (nodup_flatMap.mp h).2
  have hnot {i j : Nat} (hi : code[i]? = some (.label label)) (hj : code[j]? = some (.label label)) :
      ¬ i < j := by
    intro hlt
    rw [← Array.getElem?_toList, getElem?_eq_some_iff] at hi hj
    obtain ⟨hi, hi'⟩ := hi
    obtain ⟨hj, hj'⟩ := hj
    have hdisjoint := hpairwise i j hi hj hlt
    have hlabel : label ∈ Stmt.ownLabels (.label label) := mem_singleton.mpr rfl
    exact hdisjoint (hi' ▸ hlabel) (hj' ▸ hlabel)
  obtain rfl : p = q := Nat.le_antisymm (Nat.not_lt.mp (hnot hq hp)) (Nat.not_lt.mp (hnot hp hq))
  exact hposition

def FlatOf.pairing {limit : Nat} {body : Stmt} {code : Array Stmt}
    (h : FlatOf limit body code) {frames frames' : List Frame} (hdepth : SameDepth frames frames') :
    Pairing where
  code := code
  placed := position_of_nodup h.labels
  hidden := limit
  outer := frames
  outer' := frames'
  length_eq := hdepth.length

lemma FlatOf.twin_enter {limit : Nat} {body : Stmt} {code : Array Stmt}
    (h : FlatOf limit body code) {frames frames' : List Frame} (hdepth : SameDepth frames frames')
    {s t : State} (hlevel : Level frames frames' s t) (function : String) (file : Option Nat)
    (locals : Store) (result : Value) (heap : Heap) :
    (h.pairing hdepth).Twin [] 0
      (State.onStack (·.push (Frame.enter function file #[] locals result)) { s with heap })
      (State.onStack (·.push (Frame.enter function file code locals result)) { t with heap }) :=
  ⟨⟨hlevel.alike.globals, rfl, hlevel.alike.recovered, hlevel.alike.sink⟩, _, _,
    congrArg _ hlevel.left, congrArg _ hlevel.right, rfl, rfl, rfl, rfl, rfl, rfl,
    forall_mem_nil _⟩

/-- The states of the two executions when a body has ended. -/
structure Pairing.Ended (w : Pairing) (s t : State) : Prop where
  alike : Alike s t
  frames : ∃ f f', s.stack.frames = f :: w.outer ∧ t.stack.frames = f' :: w.outer' ∧
    f.result = f'.result

section Bodies

variable {m : Machine} {program : Program} {n limit : Nat} {body : Stmt}
  {code : Array Stmt} {frames frames' : List Frame} {s t : State}

variable {w : Pairing} {frame : Frame} {action : Exec Unit} {s₁ : State}

lemma Pairing.finishes_of_lands {flow : Flow} (h : w.Lands [] w.code.size flow s t)
    (hflow : ∀ label, flow ≠ .jump label) : w.Ended s t ∧ Finishes m w.code t (.ok () t) := by
  cases flow with
  | jump label => exact absurd rfl (hflow label)
  | normal =>
    obtain ⟨f, f', hs, ht, hf⟩ := h.frames
    refine ⟨⟨h.alike, f, f', hs, ht, hf.result⟩, 1, fun k hk => ?_⟩
    obtain ⟨k, rfl⟩ : ∃ j, k = j + 1 := ⟨k - 1, by omega⟩
    refine runCode_end ht hf.going ?_
    rw [hf.position]
    exact Array.getElem?_eq_none (Nat.le_refl _)
  | returned =>
    obtain ⟨f, f', hs, ht, hresult, hreturned⟩ := h.frames
    refine ⟨⟨h.alike, f, f', hs, ht, hresult⟩, 1, fun k hk => ?_⟩
    obtain ⟨k, rfl⟩ : ∃ j, k = j + 1 := ⟨k - 1, by omega⟩
    exact runCode_returned ht hreturned

/-- **A body** runs as flat code as it is executed directly. -/
theorem FlatOf.mirror_runTree (h : FlatOf limit body code) (hdepth : SameDepth frames frames')
    (hcalls : Corresponds m (m.withProgram program) n)
    (htwin : (h.pairing hdepth).Twin [] 0 s t) :
    Mirror (n + 1) (fun (_ : Unit) s (_ : Unit) t => (h.pairing hdepth).Ended s t)
      (h.pairing hdepth).Beside (runTree m (n + 1) body s) fun k =>
        runCode (m.withProgram program) k code t := by
  obtain ⟨ids, hlimit, hcode⟩ := h.lowered
  let w := h.pairing hdepth
  have hflat : code = (body.lower.run ids).1.flat.toArray := by
    rw [hcode, flatten_eq_flat]
  have haround : w.Around none [] ids := by
    refine ⟨hlimit, forall_mem_nil _, forall_mem_nil _, ?_⟩
    rintro label ⟨labels, ⟨⟩, -⟩
  have hcovers : w.Covers body := ⟨h.vars, h.accesses⟩
  have hcodeAt : w.CodeAt 0 (body.lower.run ids).1.flat := by
    intro i _
    show code[0 + i]? = _
    rw [Nat.zero_add, hflat, getElem?_toArray]
  have hsize : code.size = 0 + (body.lower.run ids).1.flat.length := by
    rw [hflat, size_toArray, Nat.zero_add]
  have hreaches := (w.renders_lower hcalls body ids).simulates h.structured haround hcovers hcodeAt
    hsize s t htwin
  have hjumps := jumpsTo_exec m (callTree m n) n h.structured s
  show Mirror (n + 1) _ _ ((body.exec m (callTree m n) n >>= fun _ => pure ()) s) _
  cases hexec : body.exec m (callTree m n) n s with
  | ok flow s₁ =>
    rw [hexec] at hreaches
    rw [exec_bind_ok hexec]
    obtain ⟨t₁, hlands, hleads⟩ := hreaches
    have hflow : ∀ label, flow ≠ .jump label := by
      rintro label rfl
      obtain ⟨labels, hnone, -⟩ := hjumps s₁ label hexec
      cases hnone
    obtain ⟨hended, hfinishes⟩ := Pairing.finishes_of_lands hlands hflow
    exact ⟨(), t₁, hended, hleads.ends _ hfinishes⟩
  | error e =>
    rw [hexec] at hreaches
    rw [exec_bind_error hexec]
    cases e with
    | fault f | outOfFuel => exact hreaches

lemma Alike.pop (h : Alike s t) : Alike (s.onStack Stack.pop) (t.onStack Stack.pop) :=
  ⟨h.globals, h.heap, h.recovered, h.sink⟩

/-- Both executions leave the frame of a call in the same way. -/
lemma mirror_withFrame {frame' : Frame} {action' : Nat → Exec Unit}
    (h : Mirror n (fun (_ : Unit) s (_ : Unit) t => w.Ended s t) w.Beside
      (action (s.onStack (·.push frame))) fun k => action' k (t.onStack (·.push frame'))) :
    Mirror n (fun left s right t => left.map (·.result) = right.map (·.result) ∧
      Level w.outer w.outer' s t) (Level w.outer w.outer') (withFrame frame action s) fun k =>
        withFrame frame' (action' k) t := by
  cases haction : action (s.onStack (·.push frame)) with
  | ok _ =>
    rw [haction] at h
    rw [withFrame_ok haction]
    obtain ⟨_, t₁, hended, enough, hk⟩ := h
    obtain ⟨f, f', hs, ht, hresult⟩ := hended.frames
    refine ⟨t₁.stack.top?, t₁.onStack Stack.pop, ⟨?_, hended.alike.pop, ?_, ?_⟩, enough,
      fun k hle => withFrame_ok (hk k hle)⟩
    · rw [top?_of_frames hs, top?_of_frames ht, Option.map_some, Option.map_some, hresult]
    · exact congrArg List.tail hs
    · exact congrArg List.tail ht
  | error e =>
    rw [haction] at h
    rw [withFrame_error haction]
    cases e with
    | fault =>
      obtain ⟨t₁, hbeside, enough, hk⟩ := h
      exact ⟨t₁.onStack Stack.pop, ⟨hbeside.alike.pop, hbeside.left, hbeside.right⟩, enough,
        fun k hle => withFrame_error (hk k hle)⟩
    | outOfFuel =>
      intro k hle
      obtain ⟨t₁, ht₁⟩ := h k hle
      exact ⟨_, withFrame_error ht₁⟩

end Bodies

/-! ### Calls -/

/-- Every function of the one program has its structured body there, and its flat code in the other
program. -/
def Lowering (limit : Nat) (program lowered : Program) : Prop :=
  ∀ f, (∃ cause, treeOf program f = .error cause ∧ codeOf lowered f = .error cause) ∨
    ∃ file body code, treeOf program f = .ok (file, body) ∧ codeOf lowered f = .ok (file, code) ∧
      FlatOf limit body code

section Calls

variable {m : Machine} {program : Program} {n limit : Nat} {frames frames' : List Frame}

lemma follows_of_mirror {α : Type} {R : State → State → Prop} {c : Exec α} {c' : Nat → Exec α}
    (hsteady : Steady c')
    (h : ∀ s t, R s t → Mirror n (fun a s b t => a = b ∧ R s t) R (c s) fun k => c' k t) :
    Follows R (fun _ => True) c c' ∧
      ∀ k ≤ n, Follows (fun t s => R s t) (fun _ => True) (c' k) fun _ => c := by
  have hends {s t : State} (hst : R s t) : (Unsettled (c s) ∧ ∀ k ≤ n, Unsettled (c' k t)) ∨
      ∃ r, (Agrees R (fun _ => True) (c s) r ∧ Agrees (fun t s => R s t) (fun _ => True) r (c s)) ∧
        ∃ enough, ∀ k, enough ≤ k → c' k t = r := by
    have hmirror := h s t hst
    generalize c s = result at hmirror
    match result with
    | .ok a s₁ =>
      obtain ⟨_, t₁, ⟨rfl, hR⟩, hk⟩ := hmirror
      exact .inr ⟨.ok a t₁, ⟨.ok a hR, .ok a hR⟩, hk⟩
    | .error (.fault f) s₁ =>
      obtain ⟨t₁, hR, hk⟩ := hmirror
      exact .inr ⟨.error (.fault f) t₁, ⟨.fault trivial hR, .fault trivial hR⟩, hk⟩
    | .error .outOfFuel s₁ => exact .inl ⟨⟨s₁, rfl⟩, hmirror⟩
  constructor
  · intro s t hst
    exact (hends hst).imp (·.1) fun ⟨r, hagree, hk⟩ => ⟨r, hagree.1, hk⟩
  · intro k hle t s hst
    rcases hends hst with ⟨-, hfuel⟩ | ⟨r, ⟨-, hagree⟩, enough, hr⟩
    · exact .inl (hfuel k hle)
    · by_cases hk : Unsettled (c' k t)
      · exact .inl hk
      · rw [hsteady.eq_of_eventually hr hk]
        exact .inr ⟨c s, hagree, 0, fun _ _ => rfl⟩

lemma callTree_interpreted {f : FunctionSymbol} (hkind : f.kind = .interpreted) (m : Machine)
    (fuel : Nat) (arguments : List Value) (receiver : Option Value) (s : State) :
    callTree m fuel f arguments receiver s =
      if m.mode.maxCallDepth ≤ s.stack.depth then
        .error (.fault ⟨.stackOverflow m.mode.maxCallDepth, none⟩) s
      else match treeOf m.program f with
        | .error cause => .error (.fault ⟨cause, none⟩) s
        | .ok (file, body) => inFrame (Frame.enter f.qualifiedName file #[]
            (bindParams f.params arguments) (s.heap.default m.catalog f.returnType).1)
            (runTree m fuel body) { s with heap := (s.heap.default m.catalog f.returnType).2 } := by
  rw [callTree, callTreeWith, hkind]
  refine (exec_bind_ok (get_run s) _).trans ?_
  split
  · rfl
  · cases treeOf m.program f <;> rfl

lemma mirror_callTree (hlowering : Lowering limit m.program program)
    (hdepth : SameDepth frames frames')
    (hbodies : ∀ body code (h : FlatOf limit body code) s t, (h.pairing hdepth).Twin [] 0 s t →
      Mirror n (fun (_ : Unit) s (_ : Unit) t => (h.pairing hdepth).Ended s t)
        (h.pairing hdepth).Beside (runTree m n body s) fun k =>
          runCode (m.withProgram program) k code t)
    (f : FunctionSymbol) (arguments : List Value) (receiver : Option Value) {s t : State}
    (hlevel : Level frames frames' s t) :
    Mirror n (fun a s b t => a = b ∧ Level frames frames' s t) (Level frames frames')
      (callTree m n f arguments receiver s) fun k =>
        call (m.withProgram program) k f arguments receiver t := by
  cases hkind : f.kind with
  | native native =>
    have hcoupled := coupled_level hdepth
    have hmirror := mirror_of_follows (n := n) (hcoupled.native m native receiver arguments)
      (fun _ _ => hcoupled.flip.native m native receiver arguments) hlevel
    rw [callTree, callTreeWith, hkind]
    exact hmirror.congr fun k => by rw [call, callWith, hkind]
  | interpreted =>
    have hdepths : s.stack.depth = t.stack.depth := by
      rw [s.stack.depth_eq, t.stack.depth_eq, hlevel.left, hlevel.right, hdepth.length]
    rw [callTree_interpreted hkind]
    refine Mirror.congr ?_ fun k => call_interpreted hkind _ k arguments receiver t
    rw [← hdepths, ← hlevel.alike.heap]
    have hlimit : (m.withProgram program).mode.maxCallDepth ≤ s.stack.depth ↔
      m.mode.maxCallDepth ≤ s.stack.depth := Iff.rfl
    simp only [hlimit, show (m.withProgram program).program = program from rfl]
    split
    · exact Mirror.fault hlevel
    rcases hlowering f with ⟨cause, htree, hcode⟩ | ⟨file, body, code, htree, hcode, hflat⟩
    · simp only [htree, hcode]
      exact Mirror.fault hlevel
    simp only [htree, hcode]
    have hbody := hbodies body code hflat _ _ (hflat.twin_enter hdepth hlevel f.qualifiedName file
      (bindParams f.params arguments) (s.heap.default m.catalog f.returnType).1
      (s.heap.default m.catalog f.returnType).2)
    refine (mirror_withFrame hbody).bind ?_ fun frame s₁ frame' t₁ h => ?_
    · exact fun k k' hle => (steady_runCode _ code k k' hle).withFrame _
    · exact Mirror.ok ⟨by rw [h.1], h.2⟩

/-- **Calls go alike in both programs.** -/
theorem Lowering.corresponds (h : Lowering limit m.program program) (n : Nat) :
    Corresponds m (m.withProgram program) n := by
  induction n with
  | zero =>
    intro frames frames' hdepth f arguments receiver
    refine follows_of_mirror (steady_call _ f arguments receiver) fun s t hlevel => ?_
    refine mirror_callTree h hdepth (fun body code hflat s t _ => ?_) f arguments receiver hlevel
    intro k hk
    obtain rfl : k = 0 := Nat.le_zero.mp hk
    exact unsettled_runCode_zero _ code t
  | succ n ih =>
    intro frames frames' hdepth f arguments receiver
    refine follows_of_mirror (steady_call _ f arguments receiver) fun s t hlevel => ?_
    exact mirror_callTree h hdepth (fun _ _ hflat _ _ htwin => hflat.mirror_runTree hdepth ih htwin) f
      arguments receiver hlevel

end Calls

end Parcel
