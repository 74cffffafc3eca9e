import CodeActions.Proofs.Literal
import Mathlib.Data.List.Chain

/-!
# Holes of a template

A template is scanned from its opening delimiter on: a backslash takes the next character with it, a
dollar sign before an opening brace opens a hole, and a backtick ends the template. How far a hole
goes is a matter of the code in it, so the scan leaves that to a reader of code.

A template that is written for a sum is put together from its pieces. Each of them alone is scanned
as it should be: what becomes of a quoted literal has no hole, and a template keeps its own. Where
two pieces meet, a dollar sign at the end of the first and a brace at the start of the second open a
hole that no one has written, and nothing else can go wrong.

Main statements: `Literal.scan_eq_some_iff`, what a scan finds and when, and
`Transform.holes_found_iff_apart`, a scan finds what the pieces hold exactly if no two of them meet
like that.
-/

namespace CodeActions

namespace Literal

/-! ## §1 The scan -/

/-- A reader of code that finds the brace which closes a hole. -/
structure CodeReader where
  /-- The code up to the closing brace, and what stands behind the brace. -/
  read? : List Char → Option (List Char × List Char)
  /-- What is read, the brace and what is left make up the text. -/
  split : ∀ {cs code rest : List Char}, read? cs = some (code, rest) → cs = code ++ '\x7d' :: rest
  /-- What stands behind the brace does not matter. -/
  stable : ∀ {code rest : List Char} (other : List Char),
    read? (code ++ '\x7d' :: rest) = some (code, rest) →
    read? (code ++ '\x7d' :: other) = some (code, other)

/-- The code is complete: the brace behind it is the one that closes a hole with this code. -/
def CodeReader.Reads (reader : CodeReader) (code : List Char) : Prop :=
  reader.read? (code ++ ['\x7d']) = some (code, [])

/-- What a scan finds in a template. -/
inductive Item where
  /-- A character that stands for itself. -/
  | char (c : Char)
  /-- A character behind a backslash. -/
  | escaped (c : Char)
  | hole (code : List Char)
  deriving Repr, DecidableEq

namespace Item

/-- The item as it stands in the template. -/
def render : Item → List Char
  | char c => [c]
  | escaped c => ['\\', c]
  | hole code => ['$', '\x7b'] ++ code ++ ['\x7d']

/-- The code of a hole. -/
def code? : Item → Option (List Char)
  | hole code => some code
  | _ => none

/-- The item can be found by a scan. -/
def Sound (reader : CodeReader) : Item → Prop
  | char c => c ≠ backtick ∧ c ≠ '\\'
  | escaped _ => True
  | hole code => reader.Reads code

end Item

/-- Nowhere do a dollar sign and an opening brace stand side by side that both stand for
themselves. -/
def Apart (items : List Item) : Prop :=
  items.IsChain fun first second => ¬ (first = .char '$' ∧ second = .char '\x7b')

instance (items : List Item) : Decidable (Apart items) :=
  inferInstanceAs (Decidable (List.IsChain _ _))

/-- What a scan finds up to the backtick that ends the template, and what stands behind the
backtick. -/
def scan (reader : CodeReader) : List Char → Option (List Item × List Char)
  | [] => none
  | '\\' :: c :: cs => (scan reader cs).map fun (items, rest) => (.escaped c :: items, rest)
  | '$' :: '\x7b' :: cs =>
    match _h : reader.read? cs with
    | some (code, rest) => (scan reader rest).map fun (items, rest) => (.hole code :: items, rest)
    | none => none
  | c :: cs =>
    if c = backtick then some ([], cs)
    else (scan reader cs).map fun (items, rest) => (.char c :: items, rest)
termination_by cs => cs.length
decreasing_by
  · simp only [List.length_cons]; omega
  · rw [reader.split _h]
    simp only [List.length_append, List.length_cons]
    omega
  · simp only [List.length_cons]; omega

/-- What a scan finds in a template with its delimiters. Nothing may stand behind the template. -/
def scanTemplate? (reader : CodeReader) : List Char → Option (List Item)
  | '\x60' :: cs =>
    match scan reader cs with
    | some (items, []) => some items
    | _ => none
  | _ => none

/-! ## §2 What a scan finds -/

/-- Complete code is read up to its brace in front of any text. -/
theorem CodeReader.Reads.append {reader : CodeReader} {code : List Char} (h : reader.Reads code)
    (rest : List Char) : reader.read? (code ++ '\x7d' :: rest) = some (code, rest) :=
  reader.stable rest h

/-- What has been read is complete. -/
theorem CodeReader.reads_of_read? {reader : CodeReader} {cs code rest : List Char}
    (h : reader.read? cs = some (code, rest)) : reader.Reads code := by
  rw [reader.split h] at h
  exact reader.stable [] h

/-- The items can be found by one scan. -/
structure Scannable (reader : CodeReader) (items : List Item) : Prop where
  sound : ∀ item ∈ items, item.Sound reader
  apart : Apart items

namespace Scannable

variable {reader : CodeReader} {item : Item} {items : List Item}

theorem nil : Scannable reader [] := ⟨by simp, .nil⟩

theorem cons (hitem : item.Sound reader)
    (hnext : item = .char '$' → items.head? ≠ some (.char '\x7b'))
    (h : Scannable reader items) : Scannable reader (item :: items) := by
  refine ⟨List.forall_mem_cons.mpr ⟨hitem, h.sound⟩,
    List.isChain_cons.mpr ⟨fun next hmem => ?_, h.apart⟩⟩
  rintro ⟨rfl, rfl⟩
  exact hnext rfl hmem

theorem head (h : Scannable reader (item :: items)) :
    item.Sound reader ∧ (item = .char '$' → items.head? ≠ some (.char '\x7b')) := by
  refine ⟨h.sound item List.mem_cons_self, fun hdollar hbrace => ?_⟩
  exact (List.isChain_cons.mp h.apart).1 _ hbrace ⟨hdollar, rfl⟩

theorem tail (h : Scannable reader (item :: items)) : Scannable reader items :=
  ⟨fun other hother => h.sound other (List.mem_cons_of_mem item hother),
    (List.isChain_cons.mp h.apart).2⟩

end Scannable

/-- What a scan has found makes up the text that it has passed. -/
theorem of_scan {reader : CodeReader} {cs rest : List Char} {items : List Item}
    (h : scan reader cs = some (items, rest)) :
    cs = items.flatMap Item.render ++ backtick :: rest ∧ Scannable reader items := by
  fun_induction scan reader cs generalizing items with
  -- the text is at its end, and the template is not
  | case1 => cases h
  -- behind a backslash any character will do
  | case2 c cs ih =>
    obtain ⟨⟨items, rest'⟩, hscan, h⟩ := Option.map_eq_some_iff.mp h
    cases h
    obtain ⟨htext, hitems⟩ := ih hscan
    exact ⟨by rw [htext]; rfl, hitems.cons trivial nofun⟩
  -- a hole is passed over as a whole, and the scan goes on behind its brace
  | case3 cs code rest' hread ih =>
    obtain ⟨⟨items, rest'⟩, hscan, h⟩ := Option.map_eq_some_iff.mp h
    cases h
    obtain ⟨htext, hitems⟩ := ih hscan
    refine ⟨?_, hitems.cons (CodeReader.reads_of_read? hread) nofun⟩
    rw [reader.split hread, htext]
    simp [Item.render]
  | case4 => cases h
  -- the backtick ends the template
  | case5 cs =>
    cases h
    exact ⟨rfl, .nil⟩
  | case6 c cs hslash hdollar htick ih =>
    obtain ⟨⟨items, rest'⟩, hscan, h⟩ := Option.map_eq_some_iff.mp h
    cases h
    obtain ⟨htext, hitems⟩ := ih hscan
    -- a backslash has no character behind it here, but the scan went on
    have hc : c ≠ '\\' := by
      rintro rfl
      cases cs with
      | nil => simp [scan] at hscan
      | cons d ds => exact hslash d ds rfl rfl
    refine ⟨by rw [htext]; rfl, hitems.cons ⟨htick, hc⟩ ?_⟩
    -- a dollar sign before a brace would have opened a hole
    intro hitem hbrace
    obtain ⟨items, rfl⟩ := List.head?_eq_some_iff.mp hbrace
    exact hdollar _ (Item.char.inj hitem) htext

/-- A dollar sign that stands for itself is passed if what follows it in the template is no
brace. -/
theorem scan_char {reader : CodeReader} {c : Char} {cs : List Char} (htick : c ≠ backtick)
    (hslash : c ≠ '\\') (hbrace : c = '$' → cs.head? ≠ some '\x7b') :
    scan reader (c :: cs) = (scan reader cs).map fun (items, rest) => (.char c :: items, rest) := by
  rw [scan.eq_def]
  split
  case h_1 h => cases h
  case h_2 h => exact absurd (List.cons.inj h).1 hslash
  case h_3 h =>
    obtain ⟨rfl, rfl⟩ := List.cons.inj h
    exact absurd rfl (hbrace rfl)
  case h_4 h =>
    obtain ⟨rfl, rfl⟩ := List.cons.inj h
    rw [if_neg htick]

/-- A hole with complete code is found where it is written. -/
theorem scan_hole {reader : CodeReader} {code : List Char} (h : reader.Reads code)
    (cs : List Char) :
    scan reader (Item.render (.hole code) ++ cs) =
      (scan reader cs).map fun (items, rest) => (.hole code :: items, rest) := by
  have hrender : Item.render (.hole code) ++ cs = '$' :: '\x7b' :: (code ++ '\x7d' :: cs) := by
    simp [Item.render]
  rw [hrender, scan]
  split
  case h_1 code' rest hread =>
    cases (h.append cs).symm.trans hread
    rfl
  case h_2 hread => cases (h.append cs).symm.trans hread

/-- The text of the items opens with a brace only if a brace is the first of them. -/
theorem head?_render_ne {items : List Item} {rest : List Char}
    (h : items.head? ≠ some (.char '\x7b')) :
    (items.flatMap Item.render ++ backtick :: rest).head? ≠ some '\x7b' := by
  cases items with
  | nil => simp [backtick]
  | cons item items =>
    -- an escape opens with a backslash, and a hole with a dollar sign
    cases item with
    | char c => simpa [Item.render] using h
    | escaped c => simp [Item.render]
    | hole code => simp [Item.render]

/-- Items that can be found are found where they are written. -/
theorem scan_render {reader : CodeReader} {items : List Item} (h : Scannable reader items)
    (rest : List Char) :
    scan reader (items.flatMap Item.render ++ backtick :: rest) = some (items, rest) := by
  -- item by item, and the text of the others follows
  induction items with
  | nil => simp [scan, backtick]
  | cons item items ih =>
    obtain ⟨hitem, hnext⟩ := h.head
    rw [List.flatMap_cons, List.append_assoc]
    cases item with
    | escaped c => simp [Item.render, scan, ih h.tail]
    | hole code => simp [scan_hole hitem, ih h.tail]
    | char c =>
      -- a dollar sign is read as a character only if no brace follows it
      have hbrace : c = '$' →
          (items.flatMap Item.render ++ backtick :: rest).head? ≠ some '\x7b' := by
        rintro rfl
        exact head?_render_ne (hnext rfl)
      show scan reader (c :: (items.flatMap Item.render ++ backtick :: rest)) = _
      rw [scan_char hitem.1 hitem.2 hbrace, ih h.tail]
      rfl

/-- A scan finds exactly the items that make up the text before the backtick and can be found. -/
theorem scan_eq_some_iff {reader : CodeReader} {cs rest : List Char} {items : List Item} :
    scan reader cs = some (items, rest) ↔
      cs = items.flatMap Item.render ++ backtick :: rest ∧ Scannable reader items := by
  refine ⟨of_scan, ?_⟩
  rintro ⟨rfl, h⟩
  exact scan_render h rest

/-- The same for a template with its delimiters, behind which nothing stands. -/
theorem scanTemplate?_eq_some_iff {reader : CodeReader} {cs : List Char} {items : List Item} :
    scanTemplate? reader cs = some items ↔
      cs = backtick :: (items.flatMap Item.render ++ [backtick]) ∧ Scannable reader items := by
  unfold scanTemplate?
  constructor
  · intro h
    split at h
    case h_1 cs =>
      split at h
      case h_1 items' hscan =>
        cases h
        obtain ⟨rfl, hitems⟩ := scan_eq_some_iff.mp hscan
        exact ⟨rfl, hitems⟩
      case h_2 => cases h
    case h_2 => cases h
  · rintro ⟨rfl, h⟩
    simp only [backtick]
    rw [show '\x60' = backtick from rfl, scan_eq_some_iff.mpr ⟨rfl, h⟩]

/-! ## §3 Quoted literals -/

/-- What may stand between quotes: an escape takes the next character with it, and neither the quote
nor a line end stands alone. -/
inductive QuotedBody (quote : Char) : List Char → Prop where
  | nil : QuotedBody quote []
  | char {c : Char} {cs : List Char} (hquote : c ≠ quote) (hslash : c ≠ '\\')
      (hline : c ≠ '\n' ∧ c ≠ '\r') (body : QuotedBody quote cs) : QuotedBody quote (c :: cs)
  | escaped {c : Char} {cs : List Char} (body : QuotedBody quote cs) :
      QuotedBody quote ('\\' :: c :: cs)

/-- A literal between two equal quotes. -/
def IsQuoted (literal : List Char) : Prop :=
  ∃ quote body, (quote = '\'' ∨ quote = '"') ∧ QuotedBody quote body ∧
    literal = quote :: (body ++ [quote])

/-- Without a backslash a character is escaped if it would end the template or open a hole. -/
theorem templateChunk_cons {c : Char} (hslash : c ≠ '\\') (cs : List Char) :
    templateChunk (c :: cs) =
      if c = backtick ∨ (c = '$' ∧ cs.head? = some '\x7b') then '\\' :: c :: templateChunk cs
      else c :: templateChunk cs := by
  cases cs <;> simp [templateChunk, hslash]

/-- In a template the contents of a quoted literal are characters, some of them escaped, and no
hole. -/
theorem exists_items_templateChunk (reader : CodeReader) {quote : Char} {body : List Char}
    (h : QuotedBody quote body) :
    ∃ items, templateChunk body = items.flatMap Item.render ∧ Scannable reader items ∧
      (∀ item ∈ items, item.code? = none) ∧
      (items.head? = some (.char '\x7b') → body.head? = some '\x7b') := by
  induction h with
  | nil => exact ⟨[], rfl, .nil, by simp, by simp⟩
  -- an escape is kept, and is one in the template as well
  | @escaped c cs _ ih =>
    obtain ⟨items, hrender, hitems, hcode, _⟩ := ih
    exact ⟨.escaped c :: items, by rw [templateChunk, hrender]; rfl, hitems.cons trivial nofun,
      List.forall_mem_cons.mpr ⟨rfl, hcode⟩, nofun⟩
  | @char c cs hquote hslash _ _ ih =>
    obtain ⟨items, hrender, hitems, hcode, hhead⟩ := ih
    rw [templateChunk_cons hslash, hrender]
    split
    -- what would end the template or open a hole is escaped
    case isTrue =>
      exact ⟨.escaped c :: items, rfl, hitems.cons trivial nofun,
        List.forall_mem_cons.mpr ⟨rfl, hcode⟩, nofun⟩
    case isFalse hplain =>
      obtain ⟨htick, hdollar⟩ := not_or.mp hplain
      refine ⟨.char c :: items, rfl, hitems.cons ⟨htick, hslash⟩ ?_,
        List.forall_mem_cons.mpr ⟨rfl, hcode⟩, ?_⟩
      · -- a brace behind the dollar sign would have had it escaped
        intro hc hbrace
        exact hdollar ⟨Item.char.inj hc, hhead hbrace⟩
      · intro hc
        simpa using hc

/-- Between delimiters of one byte stands the rest of the literal. -/
theorem toList_inner {literal : String} {delimiter : Char} {body : List Char}
    (hsize : delimiter.utf8Size = 1) (h : literal.toList = delimiter :: (body ++ [delimiter])) :
    (inner literal).toList = body := by
  have hslice : Text.slice literal 1 (Text.byteSize literal - 1) = .ok (String.ofList body) := by
    -- one byte at each end is one character, and between them stands the body
    have hliteral : literal =
        String.ofList [delimiter] ++ String.ofList body ++ String.ofList [delimiter] := by
      apply String.toList_inj.mp
      simp [h]
    refine Text.slice_eq_ok_iff.mpr
      ⟨String.ofList [delimiter], String.ofList [delimiter], hliteral, ?_, ?_⟩
    · simp [Text.byteSize, hsize]
    · simp [Text.byteSize, h, hsize, Nat.add_comm]
  unfold inner
  rw [hslice]
  exact String.toList_ofList

end Literal

/-! ## §4 Pieces of a sum -/

namespace ConcatPiece

open Literal

/-- The literals of the piece are well formed, and the code of a hole is complete. -/
def WellFormed (reader : CodeReader) (source : String) : ConcatPiece → Prop
  | .quoted literal => ∃ text, literal.text source = .ok text ∧ IsQuoted text.toList
  | .template literal => ∃ text items, literal.text source = .ok text ∧
      scanTemplate? reader text.toList = some items
  | .hole expression => ∃ text, expression.text source = .ok text ∧ reader.Reads text.toList

/-- The items that the piece holds: a quoted literal holds its contents without a hole, a template
what a scan of it finds, and any other operand is one hole. -/
def Holds (reader : CodeReader) (source : String) : ConcatPiece → List Item → Prop
  | .quoted literal, items => ∃ text, literal.text source = .ok text ∧
      (stringToTemplate text).toList = items.flatMap Item.render ∧ ∀ item ∈ items, item.code? = none
  | .template literal, items => ∃ text, literal.text source = .ok text ∧
      scanTemplate? reader text.toList = some items
  | .hole expression, items => ∃ text, expression.text source = .ok text ∧
      items = [.hole text.toList]

variable {reader : CodeReader} {source : String}

/-- What is written for a well-formed piece are the items that it holds, and by themselves they
would be found. -/
theorem WellFormed.exists_items {piece : ConcatPiece} (h : piece.WellFormed reader source) :
    ∃ text items, piece.render source = .ok text ∧ text.toList = items.flatMap Item.render ∧
      Scannable reader items ∧ piece.Holds reader source items := by
  cases piece with
  -- the contents are escaped where they need it
  | quoted literal =>
    obtain ⟨text, htext, quote, body, hquote, hbody, hliteral⟩ := h
    have hsize : quote.utf8Size = 1 := by rcases hquote with rfl | rfl <;> rfl
    obtain ⟨items, hrender, hitems, hcode, _⟩ := exists_items_templateChunk reader hbody
    have hchunk : (stringToTemplate text).toList = items.flatMap Item.render := by
      simp [stringToTemplate, toList_inner hsize hliteral, hrender]
    exact ⟨_, items, bind_eq_ok_iff.mpr ⟨text, htext, rfl⟩, hchunk, hitems, text, htext,
      hchunk, hcode⟩
  -- the contents are taken as they are, and a scan finds the same in them
  | template literal =>
    obtain ⟨text, items, htext, hscan⟩ := h
    obtain ⟨hliteral, hitems⟩ := scanTemplate?_eq_some_iff.mp hscan
    exact ⟨_, items, bind_eq_ok_iff.mpr ⟨text, htext, rfl⟩, toList_inner rfl hliteral, hitems,
      text, htext, hscan⟩
  -- a hole is put around the expression, and its code is complete
  | hole expression =>
    obtain ⟨text, htext, hreads⟩ := h
    refine ⟨_, [.hole text.toList], bind_eq_ok_iff.mpr ⟨text, htext, rfl⟩, ?_, ?_, text, htext, rfl⟩
    · simp [Item.render]
    · exact Scannable.nil.cons hreads nofun

/-- The same for all pieces of a template. -/
theorem exists_items_all {pieces : List ConcatPiece}
    (h : ∀ piece ∈ pieces, piece.WellFormed reader source) :
    ∃ texts found, pieces.mapM (render source) = .ok texts ∧
      (String.join texts).toList = found.flatten.flatMap Item.render ∧
      (∀ items ∈ found, Scannable reader items) ∧
      List.Forall₂ (Holds reader source) pieces found := by
  induction pieces with
  | nil => exact ⟨[], [], rfl, rfl, by simp, .nil⟩
  | cons piece pieces ih =>
    obtain ⟨hpiece, hpieces⟩ := List.forall_mem_cons.mp h
    obtain ⟨text, items, htext, hrender, hitems, hholds⟩ := hpiece.exists_items
    obtain ⟨texts, found, htexts, hjoin, hfound, hall⟩ := ih hpieces
    refine ⟨text :: texts, items :: found, ?_, ?_, List.forall_mem_cons.mpr ⟨hitems, hfound⟩,
      .cons hholds hall⟩
    · rw [List.mapM_cons]
      exact bind_eq_ok_iff.mpr ⟨text, htext, bind_eq_ok_iff.mpr ⟨texts, htexts, rfl⟩⟩
    · simp [String.join_cons, hrender, hjoin]

end ConcatPiece

open ConcatPiece Literal in
/-- A sum of well-formed literals and complete operands becomes a template. Its pieces are one for
what stands before the first string, if anything does, and one for each operand from there on. A
scan of the template finds what the pieces hold, one after the other, and ends with the template,
exactly if no two pieces meet in a dollar sign and a brace; inside a piece they never do. -/
theorem Transform.holes_found_iff_apart {reader : CodeReader} {source : String} {n : Node}
    {pieces : List ConcatPiece} (hpieces : ofTree? n.tree = some pieces)
    (hformed : ∀ piece ∈ pieces, piece.WellFormed reader source) :
    (∃ leaves parts i, n.tree.collectPlus? [] [] = some (leaves, parts) ∧
      leaves.findIdx? startsText = some i ∧
      pieces =
        (if i = 0 then [] else parts[i - 1]?.toList.map fun part => .hole part.unwrapParens) ++
          (leaves.drop i).map fun leaf => ofLeaf leaf.unwrapParens) ∧
    ∃ out found, concatToTemplate.run source n = .ok (some (.text out)) ∧
      List.Forall₂ (Holds reader source) pieces found ∧ (∀ items ∈ found, Apart items) ∧
      (scanTemplate? reader out.toList = some found.flatten ↔ Apart found.flatten) := by
  obtain ⟨leaves, parts, i, hcollect, hfirst, _, _, hpieces'⟩ := found_by_position hpieces
  refine ⟨⟨leaves, parts, i, hcollect, hfirst, hpieces'⟩, ?_⟩
  obtain ⟨texts, found, htexts, hjoin, hfound, hholds⟩ := exists_items_all hformed
  have hout : concatToTemplate.run source n =
      .ok (some (.text ("\x60" ++ String.join texts ++ "\x60"))) := by
    show Reshaping.ofShape (ofTree? n.tree) (templateLiteral source) = _
    rw [hpieces]
    exact bind_eq_ok_iff.mpr ⟨_, bind_eq_ok_iff.mpr ⟨texts, htexts, rfl⟩, rfl⟩
  refine ⟨_, found, hout, hholds, fun items hitems => (hfound items hitems).apart, ?_⟩
  -- each item can be found in its piece, and that does not depend on its neighbours
  have hsound : ∀ item ∈ found.flatten, item.Sound reader := by
    intro item hitem
    obtain ⟨items, hitems, hmem⟩ := List.mem_flatten.mp hitem
    exact (hfound items hitems).sound item hmem
  have htext : ("\x60" ++ String.join texts ++ "\x60").toList =
      backtick :: (found.flatten.flatMap Item.render ++ [backtick]) := by
    simp [hjoin, backtick]
  -- so it all comes down to the places where two pieces meet
  rw [scanTemplate?_eq_some_iff]
  exact ⟨fun h => h.2.apart, fun h => ⟨htext, hsound, h⟩⟩

/-! ## §5 A reader of code -/

namespace Literal

/-- The text up to the brace that closes as many braces as are open, and what stands behind it. -/
def matchBrace (depth : Nat) : List Char → Option (List Char × List Char)
  | [] => none
  | c :: cs =>
    if c = '\x7d' ∧ depth = 0 then some ([], cs)
    else
      let depth := if c = '\x7b' then depth + 1 else if c = '\x7d' then depth - 1 else depth
      (matchBrace depth cs).map fun (code, rest) => (c :: code, rest)

/-- What is read up to a brace is the text before it, whatever stands behind. -/
theorem of_matchBrace {depth : Nat} {cs code rest : List Char}
    (h : matchBrace depth cs = some (code, rest)) :
    cs = code ++ '\x7d' :: rest ∧
      ∀ other, matchBrace depth (code ++ '\x7d' :: other) = some (code, other) := by
  -- the depth changes on the way, so it is kept general
  induction cs generalizing depth code with
  | nil => cases h
  | cons c cs ih =>
    unfold matchBrace at h
    split at h
    case isTrue hclose =>
      cases h
      -- the brace that closes the code ends the reading, so what is behind it is free
      obtain ⟨rfl, rfl⟩ := hclose
      exact ⟨rfl, fun other => rfl⟩
    case isFalse hopen =>
      obtain ⟨⟨code, rest'⟩, hread, h⟩ := Option.map_eq_some_iff.mp h
      cases h
      obtain ⟨hcs, hother⟩ := ih hread
      refine ⟨by rw [hcs]; rfl, fun other => ?_⟩
      rw [List.cons_append, matchBrace, if_neg hopen]
      simp only [hother other, Option.map_some]

/-- A reader that counts braces. It is good for code without literals that hold braces of their
own. -/
def CodeReader.braces : CodeReader where
  read? := matchBrace 0
  split h := (of_matchBrace h).1
  stable other h := (of_matchBrace h).2 other

end Literal

namespace Sample

/-- A literal or a name. -/
def word (kind : String) (start stop : Nat) : Tree := .node { kind, span := ⟨start, stop⟩ } [] []

/-- The sum of two expressions, with a blank on each side of the sign. -/
def plus (left right : Tree) : Tree :=
  .node { kind := "binary_expression", span := ⟨left.span.start, right.span.stop⟩ }
    [("left", 0), ("operator", 1), ("right", 2)]
    [left, .node { kind := "+", span := ⟨left.span.stop + 1, left.span.stop + 2⟩, named := false }
      [] [], right]

/-- A quoted literal that ends with a dollar sign, a name and a template with a hole. -/
def mixedSource : String := "'a$' + b + \x60c$\x7bd\x7d\x60"

def mixedSum : Tree :=
  plus (plus (word "string" 0 4) (word "identifier" 7 8)) (word "template_string" 11 18)

/-- A quoted literal that ends with a dollar sign, and one that begins with a brace. -/
def braceSource : String := "'a$' + '\x7bb\x7d'"

def braceSum : Tree := plus (word "string" 0 4) (word "string" 7 12)

/-- What is no sum is its own operand. -/
theorem plusOperands?_word {kind : String} (h : kind ≠ "binary_expression") (start stop : Nat) :
    (word kind start stop).plusOperands? = some [⟨word kind start stop, word kind start stop⟩] := by
  rw [Tree.plusOperands?, if_neg (by simp [Tree.isPlus, word, Tree.kind, h])]

theorem plusOperands?_plus (left right : Tree) :
    (plus left right).plusOperands? =
      left.unwrapParens.plusOperands?.map (· ++ [⟨right, plus left right⟩]) := by
  rw [Tree.plusOperands?]
  rfl

theorem ofTree?_mixedSum :
    ConcatPiece.ofTree? mixedSum = some [.quoted (word "string" 0 4), .hole (word "identifier" 7 8),
      .template (word "template_string" 11 18)] := by
  show mixedSum.plusOperands?.bind ConcatPiece.ofOperands? = _
  rw [mixedSum, plusOperands?_plus, Tree.unwrapParens_of_kind_ne (by decide), plusOperands?_plus,
    Tree.unwrapParens_of_kind_ne (by decide), plusOperands?_word (by decide)]
  cbv

theorem ofTree?_braceSum :
    ConcatPiece.ofTree? braceSum =
      some [.quoted (word "string" 0 4), .quoted (word "string" 7 12)] := by
  show braceSum.plusOperands?.bind ConcatPiece.ofOperands? = _
  rw [braceSum, plusOperands?_plus, Tree.unwrapParens_of_kind_ne (by decide),
    plusOperands?_word (by decide)]
  cbv

theorem isQuoted_dollar : Literal.IsQuoted "'a$'".toList :=
  ⟨'\'', ['a', '$'], .inl rfl,
    .char (by decide) (by decide) (by decide) (.char (by decide) (by decide) (by decide) .nil), rfl⟩

theorem isQuoted_braces : Literal.IsQuoted "'\x7bb\x7d'".toList :=
  ⟨'\'', ['\x7b', 'b', '\x7d'], .inl rfl,
    .char (by decide) (by decide) (by decide) (.char (by decide) (by decide) (by decide)
      (.char (by decide) (by decide) (by decide) .nil)), rfl⟩

end Sample

open ConcatPiece Literal Sample in
/-- A dollar sign before a hole does no harm, and the hole of the template is found behind the one
of the name. -/
theorem Transform.holes_found_iff_apart_mixed :
    let pieces := [.quoted (word "string" 0 4), .hole (word "identifier" 7 8),
      .template (word "template_string" 11 18)]
    ofTree? mixedSum = some pieces ∧ (∀ piece ∈ pieces, piece.WellFormed .braces mixedSource) ∧
      (∃ out found, concatToTemplate.run mixedSource (.root mixedSum) = .ok (some (.text out)) ∧
        List.Forall₂ (Holds .braces mixedSource) pieces found ∧
        (scanTemplate? .braces out.toList = some found.flatten ↔ Apart found.flatten)) ∧
      scanTemplate? .braces "\x60a$$\x7bb\x7dc$\x7bd\x7d\x60".toList =
        some [.char 'a', .char '$', .hole ['b'], .char 'c', .hole ['d']] := by
  intro pieces
  have hpieces : ofTree? mixedSum = some pieces := ofTree?_mixedSum
  have hformed : ∀ piece ∈ pieces, piece.WellFormed .braces mixedSource := by
    -- the template has a hole of its own
    have htemplate : scanTemplate? .braces "\x60c$\x7bd\x7d\x60".toList =
        some [.char 'c', .hole ['d']] := by
      with_unfolding_all decide
    refine List.forall_mem_cons.mpr ⟨⟨"'a$'", rfl, isQuoted_dollar⟩, ?_⟩
    refine List.forall_mem_cons.mpr ⟨⟨"b", rfl, rfl⟩, ?_⟩
    exact List.forall_mem_singleton.mpr ⟨"\x60c$\x7bd\x7d\x60", _, rfl, htemplate⟩
  obtain ⟨_, out, found, hrun, hholds, _, hscan⟩ :=
    holes_found_iff_apart (n := .root mixedSum) hpieces hformed
  exact ⟨hpieces, hformed, ⟨out, found, hrun, hholds, hscan⟩, by with_unfolding_all decide⟩

open ConcatPiece Literal Sample in
/-- Two quoted literals meet in a hole that neither of them has. -/
theorem Transform.joint_opens_a_hole :
    let pieces := [.quoted (word "string" 0 4), .quoted (word "string" 7 12)]
    ofTree? braceSum = some pieces ∧ (∀ piece ∈ pieces, piece.WellFormed .braces braceSource) ∧
      concatToTemplate.run braceSource (.root braceSum) = .ok (some (.text "\x60a$\x7bb\x7d\x60")) ∧
      scanTemplate? .braces "\x60a$\x7bb\x7d\x60".toList = some [.char 'a', .hole ['b']] := by
  intro pieces
  refine ⟨ofTree?_braceSum, ?_, by with_unfolding_all decide, by decide +kernel⟩
  refine List.forall_mem_cons.mpr ⟨⟨"'a$'", rfl, isQuoted_dollar⟩, ?_⟩
  exact List.forall_mem_singleton.mpr ⟨"'\x7bb\x7d'", rfl, isQuoted_braces⟩

end CodeActions
