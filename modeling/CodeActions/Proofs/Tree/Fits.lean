import CodeActions.Function.Binding
import CodeActions.Path
import CodeActions.Proofs.Text.Slice
import CodeActions.Statement.Declaration
import CodeActions.Transform
import CodeActions.Tree.Statement

/-!
# Trees that fit their text

A tree fits a text if the span of every node can be cut out of it, and every template without errors
stands between backticks. Nothing else is asked: kinds, fields and children can be anything, and
spans need not be nested. Whatever the reshapings find in a fitting tree fits again, so its text can
be cut out.

Main statements: `Tree.Fits.unwrapParens`, `Tree.Fits.text`, `Node.Fits.path`, `Node.Fits.guarded`.
-/

namespace CodeActions

/-- What is made of the elements of a list is made of one of them. -/
theorem exists_of_mem_mapM {α β : Type} {f : α → Option β} {xs : List α} {ys : List β}
    (h : xs.mapM f = some ys) {y : β} (hy : y ∈ ys) : ∃ x ∈ xs, f x = some y := by
  induction xs generalizing ys with
  | nil =>
    cases h
    simp at hy
  | cons x xs ih =>
    rw [List.mapM_cons] at h
    obtain ⟨z, hz, h⟩ := Option.bind_eq_some_iff.mp h
    obtain ⟨zs, hzs, h⟩ := Option.bind_eq_some_iff.mp h
    cases h
    rcases List.mem_cons.mp hy with rfl | hy
    · exact ⟨x, List.mem_cons_self, hz⟩
    · obtain ⟨x', hx', hy'⟩ := ih hzs hy
      exact ⟨x', List.mem_cons_of_mem x hx', hy'⟩

theorem length_of_mapM {α β : Type} {f : α → Option β} {xs : List α} {ys : List β}
    (h : xs.mapM f = some ys) : ys.length = xs.length := by
  induction xs generalizing ys with
  | nil =>
    cases h
    rfl
  | cons x xs ih =>
    rw [List.mapM_cons] at h
    obtain ⟨z, hz, h⟩ := Option.bind_eq_some_iff.mp h
    obtain ⟨zs, hzs, h⟩ := Option.bind_eq_some_iff.mp h
    cases h
    simp [ih hzs]

namespace Tree

/-! ## §1 Fitting trees -/

/-- The span of the top node lies in the text, and a template has its delimiters. -/
structure Lies (source : String) (t : Tree) : Prop where
  ordered : t.span.start ≤ t.span.stop
  start : Text.isBoundary source.toList t.span.start = true
  stop : Text.isBoundary source.toList t.span.stop = true
  delimited : t.kind = "template_string" → t.hasError = false →
    ∃ inside, t.text source = .ok ("\x60" ++ inside ++ "\x60")

/-- All nodes of the tree lie in the text. -/
inductive Fits (source : String) : Tree → Prop where
  | intro {t : Tree} (lies : t.Lies source) (children : ∀ u ∈ t.children, Fits source u) :
      Fits source t

namespace Fits

variable {source : String} {t u : Tree}

theorem lies (h : t.Fits source) : t.Lies source := by
  cases h with
  | intro lies _ => exact lies

theorem child (h : t.Fits source) (hu : u ∈ t.children) : u.Fits source := by
  cases h with
  | intro _ children => exact children u hu

theorem field (h : t.Fits source) {name : String} (hu : t.field? name = some u) : u.Fits source :=
  h.child (mem_children_of_field? hu)

theorem firstCode (h : t.Fits source) (hu : t.firstCode? = some u) : u.Fits source :=
  h.child (mem_children_of_firstCode? hu)

theorem namedChild (h : t.Fits source) (hu : u ∈ t.namedChildren) : u.Fits source :=
  h.child (List.mem_filter.mp hu).1

/-- Parentheses are taken off a fitting tree one pair after the other, and each time a child is
left. -/
theorem unwrapParens (h : t.Fits source) : t.unwrapParens.Fits source := by
  fun_induction Tree.unwrapParens t with
  | case1 t _ inner hinner ih => exact ih (h.firstCode hinner)
  | case2 t => exact h
  | case3 t => exact h

mutual

/-- The elements of a comma sequence are found below it. -/
theorem sequence : ∀ {t : Tree}, t.Fits source → ∀ u ∈ t.sequence, u.Fits source
  | node label fields children, h => by
    unfold Tree.sequence
    split
    · exact sequenceAll fun c hc => h.child hc
    · simpa using h

theorem sequenceAll : ∀ {ts : List Tree}, (∀ t ∈ ts, t.Fits source) →
    ∀ u ∈ Tree.sequenceAll ts, u.Fits source
  | [], _ => by simp [Tree.sequenceAll]
  | t :: ts, h => by
    obtain ⟨ht, hts⟩ := List.forall_mem_cons.mp h
    intro u hu
    rcases List.mem_append.mp hu with hu | hu
    · split at hu
      · exact sequence ht u hu
      · simp at hu
    · exact sequenceAll hts u hu

end

/-- The statements of a body are its named children, or the body itself. -/
theorem statements (h : t.Fits source) : ∀ u ∈ t.statements, u.Fits source := by
  unfold Tree.statements
  split
  · exact fun u hu => h.namedChild hu
  · simpa using h

theorem statementExpression (h : t.Fits source) (hu : t.statementExpression? = some u) :
    u.Fits source := by
  unfold statementExpression? at hu
  split at hu
  · exact h.firstCode hu
  · cases hu

/-- Statements that are expressions have these below them. -/
theorem expressions {ts us : List Tree} (h : ∀ t ∈ ts, t.Fits source)
    (hus : expressions? ts = some us) : ∀ u ∈ us, u.Fits source := by
  intro u hu
  obtain ⟨t, ht, hexpression⟩ := exists_of_mem_mapM hus hu
  exact (h t ht).statementExpression hexpression

theorem dropLast {ts : List Tree} (h : ∀ t ∈ ts, t.Fits source) :
    ∀ t ∈ ts.dropLast, t.Fits source :=
  fun t ht => h t ((List.dropLast_sublist ts).mem ht)

theorem getLast {ts : List Tree} (h : ∀ t ∈ ts, t.Fits source) (hu : ts.getLast? = some u) :
    u.Fits source :=
  h u (List.mem_of_mem_getLast? hu)

/-! ## §2 Texts of fitting trees -/

/-- A fitting tree has a text, for its span can be cut out. -/
theorem text (h : t.Fits source) : Succeeds (t.text source) :=
  Text.succeeds_slice_iff.mpr ⟨h.lies.ordered, h.lies.start, h.lies.stop⟩

theorem textIn (h : t.Fits source) (parens : Bool) : Succeeds (t.textIn source parens) :=
  h.text.bind fun _ _ => .pure _

theorem asOperand (h : t.Fits source) (place : OperandOf) : Succeeds (t.asOperand source place) :=
  h.unwrapParens.textIn _

theorem asStatement (h : t.Fits source) : Succeeds (t.asStatement source) := h.textIn _

theorem negated (h : t.Fits source) (marks : String) : Succeeds (t.negated source marks) :=
  (h.textIn _).bind fun _ _ => .pure _

theorem asBoolean (h : t.Fits source) : Succeeds (t.asBoolean source) := by
  unfold Tree.asBoolean
  split
  · -- what is a boolean already is written as it is, the rest behind two marks
    exact h.unwrapParens.text
  · exact h.unwrapParens.negated "!!"

theorem texts {ts : List Tree} (h : ∀ t ∈ ts, t.Fits source) :
    Succeeds (ts.mapM fun t => t.text source) :=
  .mapM fun t ht => (h t ht).text

theorem joinTexts {ts : List Tree} (h : ∀ t ∈ ts, t.Fits source) (separator : String) :
    Succeeds (joinTexts source separator ts) :=
  (texts h).bind fun _ _ => .pure _

mutual

/-- The search for `this`, `super` and `arguments` cuts out identifiers only. -/
theorem readsOwnBinding : ∀ {t : Tree}, t.Fits source → Succeeds (t.readsOwnBinding source)
  | node label fields children, h => by
    unfold Tree.readsOwnBinding
    split
    · exact .pure true
    split
    · exact h.text.bind fun _ _ => .pure _
    split
    · exact .pure false
    · exact anyReadsOwnBinding fun c hc => h.child hc

theorem anyReadsOwnBinding : ∀ {ts : List Tree}, (∀ t ∈ ts, t.Fits source) →
    Succeeds (Tree.anyReadsOwnBinding source ts)
  | [], _ => .pure false
  | t :: ts, h => by
    obtain ⟨ht, hts⟩ := List.forall_mem_cons.mp h
    have hrest := anyReadsOwnBinding hts
    unfold Tree.anyReadsOwnBinding
    split
    · -- the search stops at the first child that reads one, else it goes on with the others
      refine (readsOwnBinding ht).bind fun reads _ => ?_
      cases reads with
      | true => exact .pure true
      | false => exact hrest
    · exact hrest

end

mutual

/-- So does the search for a name. -/
theorem mentions (name : String) : ∀ {t : Tree}, t.Fits source → Succeeds (t.mentions source name)
  | node _ _ _, h => anyMentions name fun _ hc => h.child hc

theorem anyMentions (name : String) : ∀ {ts : List Tree}, (∀ t ∈ ts, t.Fits source) →
    Succeeds (Tree.anyMentions source name ts)
  | [], _ => .pure false
  | t :: ts, h => by
    obtain ⟨ht, hts⟩ := List.forall_mem_cons.mp h
    have hrest := anyMentions name hts
    -- an identifier with another name is looked into like any other construct
    have hbelow : Succeeds (do if ← t.mentions source name then return true
                               Tree.anyMentions source name ts) := by
      refine (mentions name ht).bind fun found _ => ?_
      cases found with
      | true => exact .pure true
      | false => exact hrest
    unfold Tree.anyMentions
    split
    · split
      · refine ht.text.bind fun text _ => ?_
        split
        · exact .pure true
        · exact hbelow
      · exact hbelow
    · exact hrest

end

end Fits

mutual

/-- No node of the tree is a template, and all of them lie in the text. -/
def fitsPlainly (source : String) : Tree → Bool
  | node label _ children =>
    label.kind != "template_string" && decide (label.span.start ≤ label.span.stop) &&
      Text.isBoundary source.toList label.span.start &&
      Text.isBoundary source.toList label.span.stop &&
      allFitPlainly source children

/-- No node of the trees is a template, and all of them lie in the text. -/
def allFitPlainly (source : String) : List Tree → Bool
  | [] => true
  | t :: ts => t.fitsPlainly source && allFitPlainly source ts

end

theorem allFitPlainly_eq_true_iff {source : String} {ts : List Tree} :
    allFitPlainly source ts = true ↔ ∀ t ∈ ts, t.fitsPlainly source = true := by
  induction ts with
  | nil => simp [allFitPlainly]
  | cons t ts ih => simp [allFitPlainly, ih]

/-- Where there are no templates it is enough to look at the spans. -/
theorem Fits.of_fitsPlainly {source : String} {t : Tree} (h : t.fitsPlainly source = true) :
    t.Fits source := by
  induction t using Tree.induction_children with
  | step t ih =>
    cases t with
    | node label fields children =>
      -- a template would have to have delimiters, but no node of this tree is one
      simp only [fitsPlainly, Bool.and_eq_true, bne_iff_ne, decide_eq_true_eq,
        allFitPlainly_eq_true_iff] at h
      obtain ⟨⟨⟨⟨hkind, hordered⟩, hstart⟩, hstop⟩, hchildren⟩ := h
      exact .intro ⟨hordered, hstart, hstop, fun htemplate => absurd htemplate hkind⟩
        fun u hu => ih u hu (hchildren u hu)

end Tree

/-! ## §3 Fitting nodes -/

/-- The tree of the node fits, and so do all trees above it. -/
structure Node.Fits (source : String) (n : Node) : Prop where
  tree : n.tree.Fits source
  above : ∀ place ∈ n.above, place.parent.Fits source

/-- Leaving out the later nodes of a kind keeps the order of those that stay. -/
theorem Node.firstOfKinds_sublist (ns : List Node) : (firstOfKinds ns).Sublist ns := by
  induction ns with
  | nil => exact .slnil
  | cons n ns ih => exact (List.filter_sublist.trans ih).cons_cons n

theorem Node.mem_of_mem_firstOfKinds {ns : List Node} {n : Node} (h : n ∈ firstOfKinds ns) :
    n ∈ ns :=
  (firstOfKinds_sublist ns).subset h

/-- A span has no path, or it lies in the text with its ends in order and has the path of its
chain. -/
theorem Document.path_cases (d : Document) (span : Span) :
    d.path span = [] ∨
      span.stop ≤ d.byteSize ∧ span.isReversed = false ∧
        d.path span = Node.innermost ((Node.root d.tree).covering span) := by
  unfold Document.path Tree.chain
  split
  case isTrue => exact .inl rfl
  case isFalse hstop =>
    cases hspan : span.isReversed with
    | true => exact .inl rfl
    | false => exact .inr ⟨Nat.le_of_not_lt hstop, rfl, rfl⟩

/-- The nodes of a path are passed on the way down to the span. -/
theorem Document.of_mem_path {d : Document} {span : Span} {n : Node} (h : n ∈ d.path span) :
    span.stop ≤ d.byteSize ∧ span.isReversed = false ∧ n ∈ (Node.root d.tree).covering span := by
  rcases d.path_cases span with hnil | ⟨hstop, hspan, hpath⟩
  · rw [hnil] at h
    cases h
  · rw [hpath] at h
    exact ⟨hstop, hspan, List.mem_reverse.mp (Node.mem_of_mem_firstOfKinds h)⟩

namespace Node.Fits

variable {source : String} {n : Node}

theorem root {t : Tree} (h : t.Fits source) : (Node.root t).Fits source := ⟨h, by simp [Node.root]⟩

theorem child (h : n.Fits source) {c : Node} (hc : c ∈ n.children) : c.Fits source := by
  obtain ⟨⟨t, index⟩, hmem, rfl⟩ := List.mem_map.mp hc
  exact ⟨h.tree.child (List.fst_mem_of_mem_zipIdx hmem), List.forall_mem_cons.mpr ⟨h.tree, h.above⟩⟩

/-- All nodes on the way down to a span fit. -/
theorem covering (h : n.Fits source) (span : Span) : ∀ m ∈ n.covering span, m.Fits source := by
  fun_induction Node.covering span n with
  | case1 n c hc ih =>
    have hchild : c.Fits source := h.child (List.mem_of_find?_eq_some hc)
    exact List.forall_mem_cons.mpr ⟨h, ih hchild⟩
  | case2 n => simpa using h

/-- The nodes that a document offers for a span fit if the document does. -/
theorem path {d : Document} (h : d.tree.Fits d.source) (span : Span) :
    ∀ m ∈ d.path span, m.Fits d.source := by
  intro m hm
  -- the top fits, so all nodes below it do
  exact covering (root h) span m (Document.of_mem_path hm).2.2

/-- The neighbour before a fitting node fits. -/
theorem previousCode (h : n.Fits source) {t : Tree} (ht : n.previousCode? = some t) :
    t.Fits source := by
  -- the neighbour is found from above, which is why the trees above have to fit as well
  obtain ⟨place, hplace, hfind⟩ := Option.bind_eq_some_iff.mp ht
  have hparent : place.parent.Fits source := h.above place (List.mem_of_mem_head? hplace)
  have hmem := List.mem_reverse.mp (List.mem_of_find?_eq_some hfind)
  exact hparent.child (List.mem_of_mem_take hmem)

/-! ## §4 Neighbours of fitting nodes -/

theorem followsUnterminated (h : n.Fits source) : Succeeds (n.followsUnterminated source) := by
  unfold Node.followsUnterminated
  split
  case h_1 => exact .pure false
  case h_2 previous hprevious => exact (h.previousCode hprevious).text.bind fun _ _ => .pure _

/-- Whether a node ends its block is seen from the text behind it, which can be cut out. -/
theorem endsBlock (h : n.Fits source) : Succeeds (n.endsBlock source) := by
  refine (Text.succeeds_onwards h.tree.lies.stop).bind fun rest _ => ?_
  split
  · exact .pure true
  · exact .pure _

/-- A statement can be made safe against its neighbours at every fitting node. -/
theorem guarded (h : n.Fits source) (statement : String) :
    Succeeds (n.guarded source statement) := by
  -- the statement before matters only if the text could go on with it
  have hopened : ∀ closed, Succeeds (do
      if Text.opensWith continuationStarts closed then
        if ← n.followsUnterminated source then
          return ";" ++ closed
      return closed) := by
    intro closed
    split
    · refine h.followsUnterminated.bind fun follows _ => ?_
      cases follows with
      | true => exact .pure _
      | false => exact .pure _
    · exact .pure _
  exact h.endsBlock.bind fun ends _ => hopened _

end Node.Fits

/-- The indentation of a line can be cut out: the line starts behind a line end, and what indents it
consists of whole characters. -/
theorem Text.succeeds_lineIndent {source : String} {offset : Nat}
    (h : isBoundary source.toList offset = true) : Succeeds (lineIndent source offset) := by
  refine (succeeds_upTo h).bind fun front hupTo => ?_
  obtain ⟨back, rfl, _⟩ := upTo_eq_ok_iff.mp hupTo
  -- the front is cut behind its last line feed, read from its end
  have hfront : front.toList = (front.toList.reverse.dropWhile (· != '\n')).reverse ++
      (front.toList.reverse.takeWhile (· != '\n')).reverse := by
    rw [← List.reverse_append, List.takeWhile_append_dropWhile, List.reverse_reverse]
  have hline : isBoundary (front ++ back).toList (lastLineStart front) = true := by
    rw [String.toList_append, hfront, List.append_assoc]
    exact isBoundary_size _ _
  refine (succeeds_onwards hline).bind fun line _ => succeeds_upTo ?_
  rw [← List.takeWhile_append_dropWhile (p := isIndent) (l := line.toList)]
  exact isBoundary_size _ _

/-! ## §5 Transforms that answer -/

/-- The transform has an answer for every fitting node without errors, even if it declines. -/
def Transform.Answers (t : Transform) : Prop :=
  ∀ (source : String) (n : Node), n.Fits source → n.tree.hasError = false →
    Succeeds (t.run source n)

/-- A transform answers if it can write down every shape that it finds. -/
theorem Reshaping.succeeds_ofShape {α : Type} {shape : Option α} {render : α → Cut String}
    (h : ∀ s, shape = some s → Succeeds (render s)) :
    Succeeds (Reshaping.ofShape shape render) := by
  cases shape with
  | none => exact .pure none
  | some s => exact (h s rfl).bind fun _ _ => .pure _

end CodeActions
