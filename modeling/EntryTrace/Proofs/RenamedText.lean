import EntryTrace.Proofs.ParsedInsts
import EntryTrace.Proofs.PrintedText

/-!
# Texts with other names

What it means to exchange the numbers of values and blocks in a text for others: in the words that
name them, and not in strings and comments. Every text can be renamed in this way.
-/

namespace EntryTrace.Source

open Grammar (Names)

/-! ### Names that are exchanged -/

/-- What the numbers of values and blocks are exchanged for, different ones for different ones. -/
structure Renaming where
  value : Nat → Nat
  block : Nat → Nat
  value_injOn : Set.InjOn value (Set.Iio (2 ^ 64))
  block_injOn : Set.InjOn block (Set.Iio (2 ^ 64))

/-- The first word has become the second one. It may have got other zeros in front. -/
inductive Renaming.Words (r : Renaming) : String → String → Prop
  | value {index : Nat} {name name' : String} (h : Names .value index name)
    (h' : Names .value (r.value index) name') : r.Words name name'
  | block {index : Nat} {name name' : String} (h : Names .block index name)
    (h' : Names .block (r.block index) name') : r.Words name name'
  | other {name : String} (hvalue : ∀ index, ¬ Names .value index name)
    (hblock : ∀ index, ¬ Names .block index name) : r.Words name name

/-- Letters, digits and the underscore, which may not follow a number. -/
def isNumberPart (c : Char) : Bool := c.isAlphanum || c == '_'

/-- What can stand between two quotes. -/
inductive Enclosed : List Char → Prop
  | nil : Enclosed []
  | plain {c : Char} {cs : List Char} (hquote : c ≠ '"') (hescape : c ≠ '\\') (hline : c ≠ '\n')
    (h : Enclosed cs) : Enclosed (c :: cs)
  | escaped {c c' : Char} {cs : List Char} (hc : Quoted.unescape? c = some c') (h : Enclosed cs) :
    Enclosed ('\\' :: c :: cs)

/-- A string that starts here is not closed. -/
def Unclosed (cs : List Char) : Prop := ∀ inside rest, Enclosed inside → cs ≠ inside ++ '"' :: rest

/-- Functions are counted by the braces that close them. In a text that has a syntax tree, all names
of values and blocks are inside functions, so that each function has a count of its own. -/
def functionAfter (k : Nat) (c : Char) : Nat := if c = '\x7d' then k + 1 else k

/-- The second text is the first one with the names of values and blocks exchanged, in the `k`th
function by `r k`. Strings stay as they are, and so do digits with what runs into them. What comments
say is left open, and so is what comes after the quote of a string that is not closed. -/
inductive Renamed (r : Nat → Renaming) : Nat → List Char → List Char → Prop
  | nil {k : Nat} : Renamed r k [] []
  | word {k : Nat} {name name' : String} {rest rest' : List Char} (hname : IsWord name)
    (hwords : (r k).Words name name') (hrest : Apart rest) (h : Renamed r k rest rest') :
    Renamed r k (name.toList ++ rest) (name'.toList ++ rest')
  | number {k : Nat} {c : Char} {run rest rest' : List Char} (hc : c.isDigit = true)
    (hrun : ∀ d ∈ run, isNumberPart d = true) (hrest : ∀ d ∈ rest.head?, isNumberPart d = false)
    (h : Renamed r k rest rest') : Renamed r k (c :: run ++ rest) (c :: run ++ rest')
  | comment {k : Nat} {text text' rest rest' : List Char} (htext : '\n' ∉ text) (htext' : '\n' ∉ text')
    (hrest : ∀ c ∈ rest.head?, c = '\n') (h : Renamed r k rest rest') :
    Renamed r k ('#' :: (text ++ rest)) ('#' :: (text' ++ rest'))
  | str {k : Nat} {inside rest rest' : List Char} (hinside : Enclosed inside)
    (h : Renamed r k rest rest') :
    Renamed r k ('"' :: (inside ++ '"' :: rest)) ('"' :: (inside ++ '"' :: rest'))
  | unclosed {k : Nat} {cs cs' : List Char} (h : Unclosed cs) (h' : Unclosed cs') :
    Renamed r k ('"' :: cs) ('"' :: cs')
  | char {k : Nat} {c : Char} {rest rest' : List Char} (hword : isWordStart c = false)
    (hdigit : c.isDigit = false) (hcomment : c ≠ '#') (hquote : c ≠ '"')
    (h : Renamed r (functionAfter k c) rest rest') : Renamed r k (c :: rest) (c :: rest')

/-! ### Strings -/

/-- What is enclosed between quotes is read as a string, whatever comes after it. -/
lemma readString_of_enclosed {inside : List Char} (h : Enclosed inside) (acc : List Char) :
    ∃ s, ∀ rest, readString acc (inside ++ '"' :: rest) = .ok (s, rest) := by
  induction h generalizing acc with
  | nil => exact ⟨String.ofList acc.reverse, fun rest => by simp [readString]⟩
  | @plain c cs hquote hescape hline _ ih =>
    obtain ⟨s, hs⟩ := ih (c :: acc)
    refine ⟨s, fun rest => ?_⟩
    rw [List.cons_append, readString, hs]
    all_goals simp_all
  | @escaped c c' cs hc _ ih =>
    obtain ⟨s, hs⟩ := ih (c' :: acc)
    refine ⟨s, fun rest => ?_⟩
    rw [List.cons_append, List.cons_append, readString, hc]
    exact hs rest

lemma exists_enclosed_of_readString {acc cs rest : List Char} {s : String}
    (h : readString acc cs = .ok (s, rest)) :
    ∃ inside, Enclosed inside ∧ cs = inside ++ '"' :: rest := by
  fun_induction readString acc cs with
  | case1 => cases h
  | case2 =>
    cases h
    exact ⟨[], .nil, rfl⟩
  | case3 => cases h
  | case4 => cases h
  | case5 acc c cs c' hc ih =>
    obtain ⟨inside, hinside, rfl⟩ := ih h
    exact ⟨'\\' :: c :: inside, .escaped hc hinside, rfl⟩
  | case6 => cases h
  | case7 acc c cs hquote hline hend hescape ih =>
    obtain ⟨inside, hinside, rfl⟩ := ih h
    refine ⟨c :: inside, .plain hquote ?_ hline hinside, rfl⟩
    intro hc
    obtain ⟨d, ds, heq⟩ := List.exists_cons_of_ne_nil
      (show inside ++ '"' :: rest ≠ [] from List.append_ne_nil_of_right_ne_nil _ (by simp))
    exact hescape d ds hc heq

lemma readString_of_unclosed {cs : List Char} (h : Unclosed cs) (acc : List Char) :
    ∃ cause, readString acc cs = .error cause := by
  cases hread : readString acc cs with
  | error cause => exact ⟨cause, rfl⟩
  | ok result =>
    obtain ⟨inside, hinside, heq⟩ := exists_enclosed_of_readString hread
    exact absurd heq (h inside result.2 hinside)

/-! ### Every text can be renamed -/

lemma apart_dropWhile (p : Char → Bool) (cs : List Char) :
    ∀ c ∈ (cs.dropWhile p).head?, p c = false := by
  intro c hc
  have hhead := List.head?_dropWhile_not p cs
  rw [hc] at hhead
  simpa using hhead

namespace Renaming

variable {ren : Renaming}

/-- Numbers of entities are exchanged for numbers of entities. -/
structure InRange (ren : Renaming) : Prop where
  value : Set.MapsTo ren.value (Set.Iio (2 ^ 64)) (Set.Iio (2 ^ 64))
  block : Set.MapsTo ren.block (Set.Iio (2 ^ 64)) (Set.Iio (2 ^ 64))

/-- A word with its number exchanged if it names a value or a block. -/
def word (ren : Renaming) (name : String) : String :=
  match entityIndex? .value name, entityIndex? .block name with
  | some index, _ => Kind.value.label ++ toString (ren.value index)
  | none, some index => Kind.block.label ++ toString (ren.block index)
  | none, none => name

lemma words_word (h : ren.InRange) (name : String) : ren.Words name (ren.word name) := by
  have hnames {kind : Kind} {index : Nat} (hindex : index < 2 ^ 64) :
      Names kind index (kind.label ++ toString index) :=
    entityIndex?_eq_some.1 (entityIndex?_append hindex)
  have hlt {kind : Kind} {index : Nat} (hindex : Names kind index name) : index < 2 ^ 64 := by
    obtain ⟨_, _, _, _, _, hlt⟩ := hindex
    exact hlt
  unfold word
  cases hvalue : entityIndex? .value name with
  | some index =>
    have hindex := entityIndex?_eq_some.1 hvalue
    exact .value hindex (hnames (h.value (hlt hindex)))
  | none =>
    cases hblock : entityIndex? .block name with
    | some index =>
      have hindex := entityIndex?_eq_some.1 hblock
      exact .block hindex (hnames (h.block (hlt hindex)))
    | none => exact .other (entityIndex?_eq_none.1 hvalue) (entityIndex?_eq_none.1 hblock)

end Renaming

/-- A text with the names of values and blocks exchanged. -/
def renameText (r : Nat → Renaming) (k : Nat) (cs : List Char) : List Char :=
  match cs with
  | [] => []
  | c :: cs =>
    if isWordStart c then
      ((r k).word (String.ofList (c :: cs.takeWhile isWordPart))).toList ++
        renameText r k (cs.dropWhile isWordPart)
    else if c.isDigit then
      c :: cs.takeWhile isNumberPart ++ renameText r k (cs.dropWhile isNumberPart)
    else if c = '#' then
      '#' :: (cs.takeWhile (· != '\n') ++ renameText r k (cs.dropWhile (· != '\n')))
    else if c = '"' then
      match _hread : readString [] cs with
      | .ok (_, rest) => '"' :: (cs.take (cs.length - rest.length) ++ renameText r k rest)
      | .error _ => '"' :: cs
    else c :: renameText r (functionAfter k c) cs
termination_by cs.length
decreasing_by
  · exact Nat.lt_succ_of_le (length_dropWhile_le _ _)
  · exact Nat.lt_succ_of_le (length_dropWhile_le _ _)
  · exact Nat.lt_succ_of_le (length_dropWhile_le _ _)
  · exact (readString_length _hread).trans (Nat.lt_succ_self _)
  · exact Nat.lt_succ_self _

/-- Every text can be renamed. -/
theorem renamed_renameText {r : Nat → Renaming} (hr : ∀ k, (r k).InRange) (k : Nat)
    (cs : List Char) : Renamed r k cs (renameText r k cs) := by
  fun_induction renameText r k cs with
  | case1 => exact .nil
  | case2 k c cs hc ih =>
    have hname : IsWord (String.ofList (c :: cs.takeWhile isWordPart)) :=
      ⟨c, _, String.toList_ofList, hc, fun c' hc' => List.mem_takeWhile_imp hc'⟩
    have hword := Renamed.word hname ((r k).words_word (hr k) _) (apart_dropWhile isWordPart cs) ih
    rwa [String.toList_ofList, List.cons_append, List.takeWhile_append_dropWhile] at hword
  | case3 k c cs _ hc ih =>
    have hrun : ∀ d ∈ cs.takeWhile isNumberPart, isNumberPart d = true :=
      fun d hd => List.mem_takeWhile_imp hd
    have hnumber := Renamed.number hc hrun (apart_dropWhile isNumberPart cs) ih
    rwa [List.cons_append, List.takeWhile_append_dropWhile] at hnumber
  | case4 k cs _ _ ih =>
    have htext : '\n' ∉ cs.takeWhile (· != '\n') := fun h => by simpa using List.mem_takeWhile_imp h
    have hcomment := Renamed.comment htext htext
      (fun c hc => by simpa using apart_dropWhile (· != '\n') cs c hc) ih
    rwa [List.takeWhile_append_dropWhile] at hcomment
  | case5 k cs s rest hread _ _ _ ih =>
    obtain ⟨inside, hinside, rfl⟩ := exists_enclosed_of_readString hread
    have htake : (inside ++ '"' :: rest).take ((inside ++ '"' :: rest).length - rest.length) =
        inside ++ ['"'] := by
      have hlength : (inside ++ '"' :: rest).length - rest.length = (inside ++ ['"']).length := by
        simp only [List.length_append, List.length_cons, List.length_nil]
        omega
      rw [hlength, List.append_cons inside '"' rest, List.take_left]
    rw [htake, List.append_assoc]
    exact .str hinside ih
  | case6 k cs cause hread =>
    have hunclosed : Unclosed cs := by
      rintro inside rest hinside rfl
      obtain ⟨s, hs⟩ := readString_of_enclosed hinside []
      rw [hs] at hread
      cases hread
    exact .unclosed hunclosed hunclosed
  | case7 k c cs hword hdigit hcomment hquote ih =>
    exact .char (by simpa using hword) (by simpa using hdigit) hcomment hquote ih

end EntryTrace.Source
