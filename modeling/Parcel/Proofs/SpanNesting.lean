import Parcel.Proofs.Coverage
import Parcel.Proofs.Lossless

/-!
# The spans of a syntax tree nest

A text is scanned into lexemes that stand one after the other. The tree that is read from them has
its nodes on stretches of lexemes: the stretch of a node has those of its children in it, one after
the other. So the spans of nodes are related as the stretches are.

## Main results

* `Syntax.parse_spans_nest` — where the nodes of a tree stand in the text.
-/

namespace Parcel.Syntax

/-- The node is one of the tree, outermost or below another one. -/
inductive Program.Has (program : Program) : Node → Prop
  | outermost {node : Node} : node ∈ program.nodes → program.Has node
  | child {node child : Node} : program.Has node → child ∈ node.children → program.Has child

lemma inOrder_of_scan {text : String} {lexemes : List Lexeme}
    (h : Token.scan text = .ok lexemes) :
    InOrder lexemes ∧ ∀ lexeme ∈ lexemes, lexeme.span.Within ⟨0, text.utf8ByteSize⟩ := by
  obtain ⟨chars, rfl⟩ : ∃ chars, text = String.ofList chars := ⟨_, text.ofList_toList.symm⟩
  have hscanned := Token.scanned_scanFrom 0 chars
  rw [← Token.scan_ofList, h] at hscanned
  cases hscanned with
  | ok htiles =>
    have hcovers : Token.Covers 0 (String.ofList chars) "" lexemes := by
      simpa using htiles.covers "" rfl
    exact ⟨⟨hcovers.nonempty, hcovers.ordered⟩, hcovers.within⟩

lemma Program.Has.nested {program : Program} {node : Node} {lexemes : List Lexeme}
    (h : program.Has node) (houtermost : ∀ node ∈ program.nodes, node.Nested lexemes) :
    node.Nested lexemes := by
  induction h with
  | outermost hnode => exact houtermost _ hnode
  | child _ hchild ih =>
    cases ih with
    | mk _ _ _ _ _ hnested => exact hnested _ hchild

/-- **The spans of a tree nest.** Each span of the tree of a text is not empty, starts where a token
starts and ends where one ends, and so lies in the text. The spans of the children of a node lie
within its own, and come one after the other; so do the outermost ones.

**Proof sketch.** Every production reads a node on the lexemes that it moves over, and its children
on parts of them, `Parser.Reads`. For lexemes that stand in order this relates the spans,
`Placed.of_row`. -/
theorem parse_spans_nest {text : String} {lexemes : List Lexeme} {program : Program}
    (hscan : Token.scan text = .ok lexemes)
    (hparse : parse (.ofText text) lexemes = .ok program) :
    program.nodes.Pairwise (fun a b => a.span.Before b.span) ∧
    ∀ node, program.Has node →
      node.span.start < node.span.stop ∧
      (∃ lexeme ∈ lexemes, node.span.start = lexeme.span.start) ∧
      (∃ lexeme ∈ lexemes, node.span.stop = lexeme.span.stop) ∧
      node.span.Within ⟨0, text.utf8ByteSize⟩ ∧
      (∀ child ∈ node.children, child.span.Within node.span) ∧
      node.children.Pairwise (fun a b => a.span.Before b.span) := by
  obtain ⟨horder, hwithin⟩ := inOrder_of_scan hscan
  obtain ⟨hordered, hnested⟩ := (parse_reads hparse).1 horder
  refine ⟨hordered, fun node hnode => ?_⟩
  cases hnode.nested hnested with
  | mk hlt hstart hstop hchildren hsiblings _ =>
    obtain ⟨last, hlast, hend⟩ := hstop
    refine ⟨hlt, hstart, ⟨last, hlast, hend⟩, ⟨Nat.zero_le _, ?_⟩, hchildren, hsiblings⟩
    rw [hend]
    exact (hwithin last hlast).2

/-- `var x int <- -a[1] + 2;`, whose semicolon belongs to no node. -/
theorem parse_spans_nest_declaration :
    let text := "var x int <- -a[1] + 2;"
    let place : Expr := .index (.name "a" ⟨14, 15⟩) (.literal (.number "1") ⟨16, 17⟩) ⟨14, 18⟩
    let sum : Expr := .binary (.unary .neg place ⟨13, 18⟩) .add (.literal (.number "2") ⟨21, 22⟩)
      ⟨13, 22⟩
    let program : Program :=
      ⟨[.global ⟨⟨"x", ⟨4, 5⟩⟩, some (.mk "int" [] ⟨6, 9⟩), some sum, ⟨0, 22⟩⟩]⟩
    ∃ lexemes, Token.scan text = .ok lexemes ∧ parse (.ofText text) lexemes = .ok program ∧
      program.Has (.expr place) ∧ ∀ node, program.Has node →
        node.span.start < node.span.stop ∧ node.span.Within ⟨0, 23⟩ ∧
        (∀ child ∈ node.children, child.span.Within node.span) ∧
        node.children.Pairwise (fun a b => a.span.Before b.span) := by
  intro text place sum program
  let lexemes : List Lexeme := [⟨.keyword .kwVar, ⟨0, 3⟩⟩, ⟨.ident "x", ⟨4, 5⟩⟩,
    ⟨.ident "int", ⟨6, 9⟩⟩, ⟨.mark .arrow, ⟨10, 12⟩⟩, ⟨.mark .minus, ⟨13, 14⟩⟩,
    ⟨.ident "a", ⟨14, 15⟩⟩, ⟨.mark .leftBracket, ⟨15, 16⟩⟩, ⟨.number "1", ⟨16, 17⟩⟩,
    ⟨.mark .rightBracket, ⟨17, 18⟩⟩, ⟨.mark .plus, ⟨19, 20⟩⟩, ⟨.number "2", ⟨21, 22⟩⟩,
    ⟨.mark .semicolon, ⟨22, 23⟩⟩]
  have hscan : Token.scan text = .ok lexemes := by cbv
  have hparse : parse (.ofText text) lexemes = .ok program := by cbv
  have hdecl : program.Has (.decl _) := .outermost (.head _)
  have hsum : program.Has (.expr sum) := .child hdecl (.tail _ (.tail _ (.head _)))
  have hnegated : program.Has (.expr (.unary .neg place ⟨13, 18⟩)) := .child hsum (.head _)
  refine ⟨_, hscan, hparse, .child hnegated (.head _), fun node hnode => ?_⟩
  obtain ⟨hlt, -, -, hwithin, hchildren, hsiblings⟩ := (parse_spans_nest hscan hparse).2 node hnode
  exact ⟨hlt, hwithin, hchildren, hsiblings⟩

end Parcel.Syntax
