import HedgedStore.Store.Answer
import Mathlib.Data.List.TakeWhile

/-! Markup that is written out of its pieces reads back as these pieces. Written so, a listing of
keys reads back as these keys, whatever characters they hold. -/
namespace HedgedStore

namespace Markup

def Token.written : Token → List Char
  | .opening name => '<' :: (name.toList ++ ['>'])
  | .closing name => '<' :: '/' :: (name.toList ++ ['>'])
  | .text s => s

def isPlainName (name : String) : Bool := name != "" && name.toList.all Char.isAlpha

/-- Pieces that stay apart when they are written one behind another. -/
inductive Separate : List Token → Prop where
  | nil : Separate []
  | opening {name : String} {later : List Token} (plain : isPlainName name = true)
      (rest : Separate later) : Separate (.opening name :: later)
  | closing {name : String} {later : List Token} (plain : isPlainName name = true)
      (rest : Separate later) : Separate (.closing name :: later)
  | text {s : List Char} {name : String} {later : List Token} (nonempty : s ≠ [])
      (unmarked : '<' ∉ s) (rest : Separate (.closing name :: later)) :
      Separate (.text s :: .closing name :: later)

theorem ne_of_isAlpha {c d : Char} (letter : c.isAlpha = true) (other : d.isAlpha = false) :
    c ≠ d := by
  rintro rfl
  simp [letter] at other

theorem breakTag_name (name rest : List Char) (letters : name.all Char.isAlpha = true) :
    breakTag none (name ++ '>' :: rest) = some (name, rest) := by
  induction name with
  | nil => rfl
  | cons c name ih =>
    obtain ⟨letter, letters⟩ := Bool.and_eq_true_iff.mp (List.all_cons ▸ letters)
    have bracket : c ≠ '>' := ne_of_isAlpha letter rfl
    have quote : c ≠ '"' := ne_of_isAlpha letter rfl
    have apostrophe : c ≠ '\'' := ne_of_isAlpha letter rfl
    simp [breakTag, bracket, quote, apostrophe, ih letters]

theorem tagName_name (name : String) (letters : name.toList.all Char.isAlpha = true) :
    tagName name.toList = name := by
  have letter (c : Char) (member : c ∈ name.toList) : c.isAlpha = true :=
    List.all_eq_true.mp letters c member
  have whole : name.toList.takeWhile (fun c => !(c.isWhitespace || c == '/' || c == '>')) =
      name.toList := by
    refine List.takeWhile_eq_self_iff.mpr fun c member => ?_
    have slash : c ≠ '/' := ne_of_isAlpha (letter c member) rfl
    have bracket : c ≠ '>' := ne_of_isAlpha (letter c member) rfl
    have blank : c.isWhitespace = false := by
      have space : c ≠ ' ' := ne_of_isAlpha (letter c member) rfl
      have tab : c ≠ '\t' := ne_of_isAlpha (letter c member) rfl
      have ret : c ≠ '\r' := ne_of_isAlpha (letter c member) rfl
      have feed : c ≠ '\n' := ne_of_isAlpha (letter c member) rfl
      simp [Char.isWhitespace, space, tab, ret, feed]
    simp [slash, bracket, blank]
  have uncut : name.toList.reverse.takeWhile (· != ':') = name.toList.reverse := by
    refine List.takeWhile_eq_self_iff.mpr fun c member => ?_
    have colon : c ≠ ':' := ne_of_isAlpha (letter c (List.mem_reverse.mp member)) rfl
    simp [colon]
  simp only [tagName, whole, uncut, List.reverse_reverse, String.ofList_toList]

theorem tokens?_opening {name : String} (plain : isPlainName name = true) (fuel : Nat)
    (rest : List Char) :
    tokens? (fuel + 1) ((Token.opening name).written ++ rest) =
      (tokens? fuel rest).map (.opening name :: ·) := by
  obtain ⟨nonempty, letters⟩ := Bool.and_eq_true_iff.mp plain
  have tag := breakTag_name name.toList rest letters
  have named := tagName_name name letters
  have begun : name.isEmpty = false := by
    have differs : name ≠ "" := bne_iff_ne.mp nonempty
    simpa using differs
  have unclosed : name.toList.getLast? ≠ some '/' := by
    intro last
    have letter := List.all_eq_true.mp letters '/' (List.mem_of_getLast? last)
    simp at letter
  simp only [Token.written, List.cons_append, List.append_assoc, List.nil_append]
  cases spelled : name.toList with
  | nil => simp [String.toList_eq_nil_iff.mp spelled] at begun
  | cons c others =>
    rw [spelled] at tag named unclosed
    have letter : c.isAlpha = true := List.all_eq_true.mp letters c (by simp [spelled])
    have question : c ≠ '?' := ne_of_isAlpha letter rfl
    have exclamation : c ≠ '!' := ne_of_isAlpha letter rfl
    have slash : c ≠ '/' := ne_of_isAlpha letter rfl
    rw [List.cons_append] at tag ⊢
    rw [tokens?]
    · simp only [tag, named, begun, if_neg unclosed, Option.bind_eq_bind, Option.bind_some]
      cases tokens? fuel rest <;> rfl
    all_goals simp [question, exclamation, slash]

theorem tokens?_closing {name : String} (plain : isPlainName name = true) (fuel : Nat)
    (rest : List Char) :
    tokens? (fuel + 1) ((Token.closing name).written ++ rest) =
      (tokens? fuel rest).map (.closing name :: ·) := by
  obtain ⟨-, letters⟩ := Bool.and_eq_true_iff.mp plain
  have tag := breakTag_name name.toList rest letters
  simp only [Token.written, List.cons_append, List.append_assoc, List.nil_append, tokens?, tag,
    Option.bind_eq_bind, Option.bind_some, tagName_name name letters]
  cases tokens? fuel rest <;> rfl

theorem tokens?_text {s : List Char} (nonempty : s ≠ []) (unmarked : '<' ∉ s) (fuel : Nat)
    (rest : List Char) :
    tokens? (fuel + 1) ((Token.text s).written ++ '<' :: rest) =
      (tokens? fuel ('<' :: rest)).map (.text s :: ·) := by
  have inside : ∀ c ∈ s, (c != '<') = true := by
    intro c member
    exact bne_iff_ne.mpr fun same => unmarked (same ▸ member)
  have before : (s ++ '<' :: rest).takeWhile (· != '<') = s := by
    rw [List.takeWhile_append_of_pos inside]
    simp
  have behind : (s ++ '<' :: rest).dropWhile (· != '<') = '<' :: rest := by
    rw [List.dropWhile_append_of_pos inside]
    simp
  cases s with
  | nil => contradiction
  | cons c others =>
    have first : c ≠ '<' := bne_iff_ne.mp (inside c (by simp))
    rw [List.cons_append] at before behind
    rw [Token.written, List.cons_append, tokens?]
    · rw [before, behind]
    all_goals simp [first]

/-- Pieces that stay apart read back as they are. -/
theorem tokens?_written {pieces : List Token} (separate : Separate pieces) (more : Nat) :
    tokens? (pieces.length + more) (pieces.flatMap Token.written) = some pieces := by
  induction separate with
  | nil => cases more <;> rfl
  | opening plain rest ih =>
    rw [List.length_cons, Nat.add_right_comm, List.flatMap_cons, tokens?_opening plain, ih]
    rfl
  | closing plain rest ih =>
    rw [List.length_cons, Nat.add_right_comm, List.flatMap_cons, tokens?_closing plain, ih]
    rfl
  | text nonempty unmarked rest ih =>
    rw [List.flatMap_cons, Token.written, List.cons_append] at ih
    rw [List.length_cons, Nat.add_right_comm, List.flatMap_cons, List.flatMap_cons,
      Token.written.eq_2, List.cons_append, tokens?_text nonempty unmarked, ih]
    rfl

theorem length_le_written {pieces : List Token} (separate : Separate pieces) :
    pieces.length ≤ (pieces.flatMap Token.written).length := by
  induction separate with
  | nil => exact Nat.le_refl 0
  | opening plain rest ih | closing plain rest ih =>
    simp only [List.flatMap_cons, List.length_append, List.length_cons, Token.written]
    omega
  | text nonempty unmarked rest ih =>
    have some_text := List.length_pos_iff.mpr nonempty
    rw [List.flatMap_cons, List.length_append, List.length_cons, Token.written]
    omega

theorem root?_written {pieces : List Token} (separate : Separate pieces) :
    root? (String.ofList (pieces.flatMap Token.written)) = build? [] pieces := by
  obtain ⟨more, enough⟩ := Nat.exists_eq_add_of_le (length_le_written separate)
  have read := tokens?_written separate (more + 1)
  rw [← Nat.add_assoc, ← enough] at read
  simp only [root?, String.toList_ofList, read, Option.bind_eq_bind, Option.bind_some]

def escape : Char → List Char
  | '<' => ['&', 'l', 't', ';']
  | '&' => ['&', 'a', 'm', 'p', ';']
  | c => [c]

theorem escape_unmarked (text : List Char) : '<' ∉ text.flatMap escape := by
  intro found
  obtain ⟨c, -, member⟩ := List.mem_flatMap.mp found
  unfold escape at member
  split at member
  · simp at member
  · simp at member
  · rename_i unmarked _
    exact unmarked (List.mem_singleton.mp member).symm

theorem length_le_escape (text : List Char) : text.length ≤ (text.flatMap escape).length := by
  induction text with
  | nil => exact Nat.le_refl 0
  | cons c text ih =>
    have some_char : 1 ≤ (escape c).length := by
      unfold escape
      split <;> simp
    rw [List.flatMap_cons, List.length_append, List.length_cons]
    omega

/-- An escaped text stands for the text, given fuel for each character. -/
theorem decode?_escape (text : List Char) (more : Nat) :
    Element.decode? (text.length + more) (text.flatMap escape) = some text := by
  induction text with
  | nil => cases more <;> rfl
  | cons c text ih =>
    rw [List.length_cons, Nat.add_right_comm, List.flatMap_cons, escape.eq_def]
    split
    · simp [Element.decode?, breakAfter, Element.entity?, ih]
    · simp [Element.decode?, breakAfter, Element.entity?, ih]
    · simp [Element.decode?, ih]

/-- The text of an element without any in it, as it is written. -/
def written? (text : String) : Option (List Char) :=
  if text = "" then none else some (text.toList.flatMap escape)

theorem data?_written (name text : String) :
    (Element.mk name (written? text) []).data? = some text := by
  unfold written?
  split
  · simp_all [Element.data?]
  · obtain ⟨more, enough⟩ := Nat.exists_eq_add_of_le (length_le_escape text.toList)
    have decoded := decode?_escape text.toList (more + 1)
    rw [← Nat.add_assoc, ← enough] at decoded
    simp only [Element.data?, decoded, Option.map_some, String.ofList_toList]

def leaf (name text : String) : List Token :=
  .opening name :: ((written? text).toList.map Token.text ++ [.closing name])

theorem separate_leaf {name : String} (plain : isPlainName name = true) (text : String)
    {later : List Token} (rest : Separate later) : Separate (leaf name text ++ later) := by
  have closed : Separate (.closing name :: later) := .closing plain rest
  unfold leaf written?
  split
  · exact .opening plain closed
  · rename_i nonempty
    refine .opening plain (.text ?_ (escape_unmarked text.toList) closed)
    have some_text := List.length_pos_iff.mpr (mt String.toList_eq_nil_iff.mp nonempty)
    exact List.length_pos_iff.mp (Nat.lt_of_lt_of_le some_text (length_le_escape text.toList))

theorem build?_leaf (frame : Frame) (outer : List Frame) (name text : String)
    (later : List Token) :
    build? (frame :: outer) (leaf name text ++ later) =
      build? ({ frame with children := .mk name (written? text) [] :: frame.children } :: outer)
        later := by
  unfold leaf
  cases written? text <;> simp [build?, close]

end Markup

open Markup

namespace Listing

def entryPieces (key : String) : List Token :=
  .opening "Contents" :: (leaf "Key" key ++ [.closing "Contents"])

def entry (key : String) : Element := .mk "Contents" none [.mk "Key" (written? key) []]

def flagText (truncated : Bool) : String := if truncated then "true" else "false"

def flag (truncated : Bool) : Element := .mk "IsTruncated" (written? (flagText truncated)) []

def root (keys : List String) (truncated : Bool) : Element :=
  .mk "ListBucketResult" none (keys.map entry ++ [flag truncated])

def pieces (keys : List String) (truncated : Bool) : List Token :=
  .opening "ListBucketResult" :: (keys.flatMap entryPieces ++
    (leaf "IsTruncated" (flagText truncated) ++ [.closing "ListBucketResult"]))

/-- The markup that lists keys. -/
def written (keys : List String) (truncated : Bool) : String :=
  String.ofList ((pieces keys truncated).flatMap Token.written)

theorem separate_pieces (keys : List String) (truncated : Bool) :
    Separate (pieces keys truncated) := by
  refine .opening (by decide) ?_
  induction keys with
  | nil => exact separate_leaf (by decide) _ (.closing (by decide) .nil)
  | cons key keys ih =>
    rw [List.flatMap_cons, List.append_assoc, entryPieces, List.cons_append, List.append_assoc]
    exact .opening (by decide) (separate_leaf (by decide) key (.closing (by decide) ih))

theorem build?_entries (frame : Frame) (keys : List String) (later : List Token) :
    build? [frame] (keys.flatMap entryPieces ++ later) =
      build? [{ frame with children := (keys.map entry).reverse ++ frame.children }] later := by
  induction keys generalizing frame with
  | nil => rfl
  | cons key keys ih =>
    rw [List.flatMap_cons, List.append_assoc, entryPieces, List.cons_append, List.append_assoc,
      build?, build?_leaf]
    simp only [List.cons_append, List.nil_append, build?, close, ne_eq, not_true_eq_false, if_false]
    rw [ih]
    simp [entry]

theorem root?_listing (keys : List String) (truncated : Bool) :
    root? (written keys truncated) = some (root keys truncated) := by
  rw [written, root?_written (separate_pieces keys truncated), pieces, build?, build?_entries,
    build?_leaf]
  simp [build?, close, root, flag]

theorem entries_root (keys : List String) (truncated : Bool) :
    (root keys truncated).children.filter (·.name == "Contents") = keys.map entry := by
  have others : [flag truncated].filter (·.name == "Contents") = [] := rfl
  have same : (keys.map entry).filter (·.name == "Contents") = keys.map entry :=
    List.filter_eq_self.mpr (List.forall_mem_map.mpr fun key _ => rfl)
  rw [root, Element.children, List.filter_append, others, same, List.append_nil]

theorem flag_root (keys : List String) (truncated : Bool) :
    (root keys truncated).last? "IsTruncated" = some (flag truncated) := by
  have flags : [flag truncated].filter (·.name == "IsTruncated") = [flag truncated] := rfl
  rw [Element.last?, root, Element.children, List.filter_append, flags, List.getLast?_concat]

theorem entryKey?_entry (key : String) : Answer.entryKey? (entry key) = some (some key) := by
  have data := data?_written "Key" key
  simp [Answer.entryKey?, entry, Element.last?, Element.children, Element.name, data]

theorem mapM_entryKey? (keys : List String) :
    (keys.map entry).mapM Answer.entryKey? = some (keys.map some) := by
  simp only [List.mapM_map, Function.comp_def, entryKey?_entry]
  exact List.mapM_pure

theorem truth?_flagText (truncated : Bool) : Answer.truth? (flagText truncated) = some truncated := by
  cases truncated <;> rfl

end Listing

theorem Answer.markup?_of_body {answer : Answer} {text : String}
    (body : answer.body = text.toUTF8.data.toList) : answer.markup? = root? text := by
  have bytes : (⟨answer.body.toArray⟩ : ByteArray) = text.toByteArray := by
    rw [body, Array.toArray_toList]
    rfl
  rw [Answer.markup?, bytes, String.fromUTF8?, dif_pos text.isValidUTF8]
  rfl

/-- An answer without a body has no error code; its status alone tells whether the trouble passes. -/
theorem Answer.isPassing_of_empty {answer : Answer} (empty : answer.body = []) :
    answer.isPassing = [500, 502, 503, 504].contains answer.status := by
  have body : answer.body = "".toUTF8.data.toList := empty
  have markup : answer.markup? = none := markup?_of_body body
  simp [isPassing, errorCode?, markup]

/-- A listing that is written lists the keys that it was written for. -/
theorem Answer.listing?_written {answer : Answer} {keys : List String} {truncated : Bool}
    (body : answer.body = (Listing.written keys truncated).toUTF8.data.toList) :
    answer.listing? = some ⟨keys.map some, some truncated⟩ := by
  have named : (Listing.root keys truncated).name = "ListBucketResult" := rfl
  have data : (Listing.flag truncated).data? = some (Listing.flagText truncated) :=
    data?_written _ _
  simp only [listing?, markup?_of_body body, Listing.root?_listing, Option.bind_eq_bind,
    Option.bind_some, named, ne_eq, not_true_eq_false, if_false, Listing.entries_root,
    Listing.mapM_entryKey?, Listing.flag_root, data, Listing.truth?_flagText]
  rfl

end HedgedStore
