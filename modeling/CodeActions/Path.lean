import CodeActions.Document
import CodeActions.Tree.Node

/-!
# The constructs around a span

From the top of a tree one can always step to the first child that covers a given span, until no
child does. The nodes passed on the way are the chain of the span. Of each kind only the innermost
node matters, and these nodes, from the inside out, are the path of the span.
-/

namespace CodeActions

/-- The node and, one below the other, the first children that cover the span. -/
def Node.covering (span : Span) (n : Node) : List Node :=
  match _h : n.children.find? fun c => c.span.contains span with
  | some c => n :: c.covering span
  | none => [n]
termination_by n.tree.size
decreasing_by
  exact Tree.size_lt_of_mem_children (Node.tree_mem_of_mem_children (List.mem_of_find?_eq_some ‹_›))

/-- The chain of a span, from the top down. The top stands for the whole text and need not cover the
span itself. A span whose ends are in the wrong order has no chain. -/
def Tree.chain (t : Tree) (span : Span) : List Node :=
  if span.isReversed then [] else (Node.root t).covering span

/-- The first node of each kind, in order. -/
def Node.firstOfKinds : List Node → List Node
  | [] => []
  | n :: ns => n :: (firstOfKinds ns).filter fun m => m.kind != n.kind

/-- The innermost node of each kind in a chain, from the inside out. -/
def Node.innermost (chain : List Node) : List Node := firstOfKinds chain.reverse

/-- The path of a span. There is none for a span that ends past the text. -/
def Document.path (d : Document) (span : Span) : List Node :=
  if d.byteSize < span.stop then [] else Node.innermost (d.tree.chain span)

end CodeActions
