import Mathlib.Data.List.Basic

namespace SimpleCdn

/-- The pieces of a text between the occurrences of one separator character.
Empty pieces are kept, so the empty text has one piece. -/
def splitOnChar (sep : Char) (text : String) : List String :=
  (text.toList.splitOn sep).map String.ofList

/-- The characters with the Unicode property White_Space. -/
def isWhitespace (c : Char) : Bool :=
  let n := c.toNat
  (9 ≤ n && n ≤ 13) || n == 0x20 || n == 0x85 || n == 0xA0 || n == 0x1680 ||
    (0x2000 ≤ n && n ≤ 0x200A) || n == 0x2028 || n == 0x2029 || n == 0x202F || n == 0x205F || n == 0x3000

theorem isWhitespace_of_printable {c : Char} (low : 0x21 ≤ c.toNat) (high : c.toNat ≤ 0x7E) :
    isWhitespace c = false := by
  simp only [isWhitespace, Bool.or_eq_false_iff, Bool.and_eq_false_iff, decide_eq_false_iff_not,
    beq_eq_false_iff_ne]
  omega

/-- The maximal runs of characters between those with a property. -/
def wordsBetween (p : Char → Bool) (text : String) : List String :=
  ((text.toList.splitOnP p).filter (fun piece => !piece.isEmpty)).map String.ofList

/-- `split_whitespace` of a Rust string. -/
def splitWhitespace (text : String) : List String := wordsBetween isWhitespace text

/-- `split` of a Python string, which also separates at four control characters. -/
def pythonSplit (text : String) : List String :=
  wordsBetween (fun c => isWhitespace c || (0x1C ≤ c.toNat && c.toNat ≤ 0x1F)) text

theorem ofList_toList_map (pieces : List String) :
    (pieces.map String.toList).map String.ofList = pieces := by
  simp [Function.comp_def]

/-- Pieces that are each ended by the separator come back, and an empty piece behind the last. -/
theorem splitOnChar_terminated {sep : Char} {pieces : List String}
    (free : ∀ piece ∈ pieces, sep ∉ piece.toList) :
    splitOnChar sep (String.join (pieces.map (·.push sep))) = pieces ++ [""] := by
  induction pieces with
  | nil => simp [splitOnChar]
  | cons piece rest ih =>
    have here := free piece (List.mem_cons_self ..)
    have later := ih fun other member => free other (List.mem_cons_of_mem piece member)
    have cut : (String.join ((piece :: rest).map (·.push sep))).toList.splitOn sep =
        piece.toList :: (String.join (rest.map (·.push sep))).toList.splitOn sep := by
      rw [String.toList_join, List.map_cons, List.flatMap_cons, String.toList_push, List.append_assoc,
        List.singleton_append, List.splitOn_append_cons_self, List.splitOn_eq_singleton here,
        List.singleton_append, String.toList_join]
    rw [splitOnChar, cut, List.map_cons, String.ofList_toList, List.cons_append]
    exact congrArg (piece :: ·) later

section Joined
variable {sep : Char}

/-- Pieces that are each ended by the separator are the pieces joined by it,
with one more at the end. -/
theorem toList_join_push {pieces : List String} (nonempty : pieces ≠ []) :
    (String.join (pieces.map (·.push sep))).toList = [sep].intercalate (pieces.map String.toList) ++ [sep] := by
  induction pieces with
  | nil => exact absurd rfl nonempty
  | cons piece rest ih =>
    rw [String.toList_join, List.map_cons, List.flatMap_cons, String.toList_push, ← String.toList_join]
    cases rest with
    | nil => simp
    | cons next others =>
      have later : (next :: others).map String.toList ≠ [] := List.cons_ne_nil _ _
      show _ = [sep].intercalate (piece.toList :: (next :: others).map String.toList) ++ [sep]
      rw [ih (List.cons_ne_nil next others), List.intercalate_cons_of_ne_nil later, ← List.append_assoc]

theorem splitOnChar_intercalate {pieces : List String} (free : ∀ piece ∈ pieces, sep ∉ piece.toList)
    (nonempty : pieces ≠ []) :
    splitOnChar sep (String.ofList ([sep].intercalate (pieces.map String.toList))) = pieces := by
  have plain : ∀ piece ∈ pieces.map String.toList, sep ∉ piece := List.forall_mem_map.mpr free
  rw [splitOnChar, String.toList_ofList, List.splitOn_intercalate sep plain (by simpa using nonempty),
    ofList_toList_map]

/-- Pieces that hold something other than separators do not end in one when they are joined. -/
theorem intercalate_eq_concat {pieces : List String} (nonempty : ∀ piece ∈ pieces, piece ≠ "")
    (free : ∀ piece ∈ pieces, sep ∉ piece.toList) (some : pieces ≠ []) :
    ∃ front last, [sep].intercalate (pieces.map String.toList) = front ++ [last] ∧ last ≠ sep := by
  induction pieces with
  | nil => exact absurd rfl some
  | cons piece rest ih =>
    rw [List.forall_mem_cons] at nonempty free
    cases rest with
    | nil =>
      have inPiece : piece.toList ≠ [] := by simpa using nonempty.1
      refine ⟨piece.toList.dropLast, piece.toList.getLast inPiece, ?_, ?_⟩
      · rw [List.dropLast_append_getLast]
        exact List.intercalate_singleton
      · exact fun same => free.1 (same ▸ List.getLast_mem inPiece)
    | cons next others =>
      obtain ⟨front, last, ends, other⟩ := ih nonempty.2 free.2 (List.cons_ne_nil next others)
      have later : (next :: others).map String.toList ≠ [] := List.cons_ne_nil _ _
      refine ⟨piece.toList ++ [sep] ++ front, last, ?_, other⟩
      show [sep].intercalate (piece.toList :: (next :: others).map String.toList) = _
      rw [List.intercalate_cons_of_ne_nil later, ends, ← List.append_assoc]

end Joined

/-- What holds of the separator's characters and of those of the pieces holds of all. -/
theorem forall_mem_intercalate {P : Char → Prop} {sep : String} {pieces : List String}
    (inSep : ∀ c ∈ sep.toList, P c)
    (inPieces : ∀ piece ∈ pieces, ∀ c ∈ piece.toList, P c) :
    ∀ c ∈ (sep.intercalate pieces).toList, P c := by
  induction pieces with
  | nil =>
    intro c member
    simp at member
  | cons piece rest ih =>
    rw [List.forall_mem_cons] at inPieces
    cases rest with
    | nil => simpa using inPieces.1
    | cons next others =>
      rw [String.intercalate_cons_cons, String.toList_append, String.toList_append, List.forall_mem_append,
        List.forall_mem_append]
      exact ⟨⟨inPieces.1, inSep⟩, ih inPieces.2⟩

/-- A separator ends a word. -/
theorem wordsBetween_append_cons {p : Char → Bool} {sep : Char} (separates : p sep) (before after : List Char) :
    wordsBetween p (String.ofList (before ++ sep :: after)) =
      wordsBetween p (String.ofList before) ++ wordsBetween p (String.ofList after) := by
  simp only [wordsBetween, String.toList_ofList, List.splitOnP_append_cons _ _ separates, List.filter_append,
    List.map_append]

theorem wordsBetween_of_free {p : Char → Bool} {text : List Char} (free : ∀ c ∈ text, p c = false) :
    wordsBetween p (String.ofList text) = if text = [] then [] else [String.ofList text] := by
  rw [wordsBetween, String.toList_ofList, List.splitOnP_eq_singleton free]
  cases text <;> simp

/-- Words joined by single separators come back unchanged, and none comes from
an empty list of words. -/
theorem wordsBetween_intercalate {p : Char → Bool} {sep : Char} (separates : p sep) {words : List String}
    (nonempty : ∀ word ∈ words, word ≠ "") (free : ∀ word ∈ words, ∀ c ∈ word.toList, p c = false) :
    wordsBetween p ((String.singleton sep).intercalate words) = words := by
  induction words with
  | nil => rfl
  | cons word rest ih =>
    rw [List.forall_mem_cons] at nonempty free
    have here := wordsBetween_of_free free.1
    rw [if_neg (by simpa using nonempty.1), String.ofList_toList] at here
    cases rest with
    | nil => rwa [String.intercalate_singleton]
    | cons next others =>
      have text : (String.singleton sep).intercalate (word :: next :: others) =
          String.ofList (word.toList ++ sep :: ((String.singleton sep).intercalate (next :: others)).toList) := by
        rw [← String.toList_inj, String.intercalate_cons_cons]
        simp
      rw [text, wordsBetween_append_cons separates, String.ofList_toList, String.ofList_toList, here,
        ih nonempty.2 free.2, List.singleton_append]

theorem splitWhitespace_intercalate {words : List String} (nonempty : ∀ word ∈ words, word ≠ "")
    (free : ∀ word ∈ words, ∀ c ∈ word.toList, isWhitespace c = false) :
    splitWhitespace (" ".intercalate words) = words := by
  have space : String.singleton ' ' = " " := by decide
  have separates : isWhitespace ' ' := by decide
  have back := wordsBetween_intercalate separates nonempty free
  rwa [space] at back

section Words
variable {α : Type} {p q : α → Bool}

theorem splitOnP_congr {l : List α} (same : ∀ x ∈ l, p x = q x) : l.splitOnP p = l.splitOnP q := by
  induction l with
  | nil => rfl
  | cons x rest ih =>
    rw [List.splitOnP_cons_eq_if_modifyHead, List.splitOnP_cons_eq_if_modifyHead, same x (List.mem_cons_self ..),
      ih fun y member => same y (List.mem_cons_of_mem x member)]

theorem not_of_mem_splitOnP {l piece : List α} (member : piece ∈ l.splitOnP p) : ∀ x ∈ piece, p x = false := by
  induction l generalizing piece with
  | nil =>
    rw [List.mem_singleton.mp member]
    intro x impossible
    cases impossible
  | cons y rest ih =>
    obtain ⟨first, others, pieces⟩ := List.exists_cons_of_ne_nil (List.splitOnP_ne_nil p rest)
    rw [List.splitOnP_cons_eq_if_modifyHead, pieces] at member
    rw [pieces] at ih
    by_cases separates : p y
    · rw [if_pos separates] at member
      rcases List.mem_cons.mp member with rfl | later
      · intro x impossible
        cases impossible
      · exact ih later
    · rw [if_neg separates, List.modifyHead_cons] at member
      rcases List.mem_cons.mp member with rfl | later
      · intro x inPiece
        rcases List.mem_cons.mp inPiece with rfl | inFirst
        · simpa using separates
        · exact ih (List.mem_cons_self ..) x inFirst
      · exact ih (List.mem_cons_of_mem first later)

theorem exists_mem_splitOnP {l : List α} {x : α} (member : x ∈ l) (kept : p x = false) :
    ∃ piece ∈ l.splitOnP p, x ∈ piece := by
  induction l with
  | nil => cases member
  | cons y rest ih =>
    obtain ⟨first, others, pieces⟩ := List.exists_cons_of_ne_nil (List.splitOnP_ne_nil p rest)
    rw [List.splitOnP_cons_eq_if_modifyHead]
    rw [pieces] at ih ⊢
    rcases List.mem_cons.mp member with rfl | inRest
    · rw [kept]
      exact ⟨x :: first, List.mem_cons_self .., List.mem_cons_self ..⟩
    · obtain ⟨piece, inPieces, inPiece⟩ := ih inRest
      by_cases separates : p y
      · rw [if_pos separates]
        exact ⟨piece, List.mem_cons_of_mem [] inPieces, inPiece⟩
      · rw [if_neg separates, List.modifyHead_cons]
        rcases List.mem_cons.mp inPieces with rfl | later
        · exact ⟨y :: piece, List.mem_cons_self .., List.mem_cons_of_mem y inPiece⟩
        · exact ⟨piece, List.mem_cons_of_mem _ later, inPiece⟩

end Words

theorem mem_wordsBetween {p : Char → Bool} {text word : String} :
    word ∈ wordsBetween p text ↔ word ≠ "" ∧ word.toList ∈ text.toList.splitOnP p := by
  simp only [wordsBetween, List.mem_map, List.mem_filter]
  constructor
  · rintro ⟨piece, ⟨member, nonempty⟩, rfl⟩
    rw [String.toList_ofList]
    refine ⟨fun empty => ?_, member⟩
    have noPiece : piece = [] := by simpa using congrArg String.toList empty
    simp [noPiece] at nonempty
  · rintro ⟨nonempty, member⟩
    exact ⟨word.toList, ⟨member, by simpa using nonempty⟩, String.ofList_toList⟩

theorem wordsBetween_congr {p q : Char → Bool} {text : String} (same : ∀ c ∈ text.toList, p c = q c) :
    wordsBetween p text = wordsBetween q text := by
  rw [wordsBetween, wordsBetween, splitOnP_congr same]

/-- A word holds no separator. -/
theorem not_of_mem_wordsBetween {p : Char → Bool} {text word : String} (member : word ∈ wordsBetween p text) :
    ∀ c ∈ word.toList, p c = false :=
  not_of_mem_splitOnP (mem_wordsBetween.mp member).2

/-- Every other character is in some word. -/
theorem exists_mem_wordsBetween {p : Char → Bool} {text : String} {c : Char} (member : c ∈ text.toList)
    (kept : p c = false) : ∃ word ∈ wordsBetween p text, c ∈ word.toList := by
  obtain ⟨piece, inPieces, inPiece⟩ := exists_mem_splitOnP member kept
  refine ⟨String.ofList piece, mem_wordsBetween.mpr ⟨fun empty => ?_, ?_⟩, ?_⟩
  · have noPiece : piece = [] := by simpa using congrArg String.toList empty
    rw [noPiece] at inPiece
    cases inPiece
  · rwa [String.toList_ofList]
  · rwa [String.toList_ofList]

section Spaced
variable {p : Char → Bool} {item : String → Prop}

/-- Texts of items that are kept apart by separators. -/
inductive Spaced (p : Char → Bool) (item : String → Prop) : List Char → Prop
  | nil : Spaced p item []
  | item (word : String) : item word → Spaced p item word.toList
  | apart {before sep after} : Spaced p item before → p sep → Spaced p item after →
      Spaced p item (before ++ sep :: after)

theorem Spaced.words (free : ∀ word, item word → ∀ c ∈ word.toList, p c = false) {text : List Char}
    (spaced : Spaced p item text) : ∀ word ∈ wordsBetween p (String.ofList text), item word := by
  induction spaced with
  | nil =>
    intro word member
    cases member
  | item word fits =>
    rw [wordsBetween_of_free (free word fits)]
    intro other member
    split at member
    · cases member
    · rw [List.mem_singleton.mp member, String.ofList_toList]
      exact fits
  | apart _ separates _ ihBefore ihAfter =>
    rw [wordsBetween_append_cons separates]
    exact List.forall_mem_append.mpr ⟨ihBefore, ihAfter⟩

theorem spaced_of_free {text : List Char} (free : ∀ c ∈ text, p c = false)
    (items : ∀ word ∈ wordsBetween p (String.ofList text), item word) : Spaced p item text := by
  rw [wordsBetween_of_free free] at items
  by_cases empty : text = []
  · rw [empty]
    exact .nil
  · rw [if_neg empty] at items
    have spaced := Spaced.item (p := p) _ (items _ (List.mem_singleton_self _))
    rwa [String.toList_ofList] at spaced

/-- The words are found from the front; `head` is the part of one that has been read. -/
theorem spaced_of_words (text head : List Char) (free : ∀ c ∈ head, p c = false)
    (items : ∀ word ∈ wordsBetween p (String.ofList (head ++ text)), item word) :
    Spaced p item (head ++ text) := by
  induction text generalizing head with
  | nil =>
    rw [List.append_nil] at items ⊢
    exact spaced_of_free free items
  | cons c rest ih =>
    by_cases separates : p c
    · rw [wordsBetween_append_cons separates, List.forall_mem_append] at items
      exact .apart (spaced_of_free free items.1) separates (ih [] (List.forall_mem_nil _) items.2)
    · rw [List.append_cons] at items ⊢
      refine ih _ (fun other member => ?_) items
      rcases List.mem_append.mp member with old | new
      · exact free other old
      · rw [List.mem_singleton.mp new]
        exact Bool.eq_false_iff.mpr separates

theorem spaced_iff (free : ∀ word, item word → ∀ c ∈ word.toList, p c = false) (text : String) :
    Spaced p item text.toList ↔ ∀ word ∈ wordsBetween p text, item word := by
  constructor
  · intro spaced
    have words := spaced.words free
    rwa [String.ofList_toList] at words
  · intro items
    rw [← String.ofList_toList (s := text)] at items
    exact spaced_of_words text.toList [] (List.forall_mem_nil _) items

end Spaced

theorem splitOnChar_filter (sep : Char) (text : String) :
    (splitOnChar sep text).filter (· ≠ "") = wordsBetween (· == sep) text := by
  rw [splitOnChar, List.splitOn_eq_splitOnP, wordsBetween, List.filter_map]
  congr 1
  refine List.filter_congr fun piece _ => ?_
  cases piece with
  | nil => rfl
  | cons c rest => simp

/-- What a file reads as in text mode: every line end is a newline. -/
def universalNewlines : List Char → List Char
  | '\r' :: '\n' :: rest => '\n' :: universalNewlines rest
  | '\r' :: rest => '\n' :: universalNewlines rest
  | c :: rest => c :: universalNewlines rest
  | [] => []

end SimpleCdn
