import MarkupTemplate.Proofs.Tag.Items

/-!
# Encoded attributes

A value can be written in quoted pieces with nothing between them, each without the quote that is
around it. So there is an encoding of every text, and of most there are many: double quotes go into
single ones, single quotes into double ones, and the rest may be cut anywhere.

Outside of quotes an encoding has nothing but the quotes that open in it, neither a blank nor a
separator. So a row of encodings has just the encoded values, in their order, and a row of keys with
encodings behind separators has just these pairs (`parse_encoded`).

An encoding knows how it is written and which value it has, and both are read off its pieces. That
the value is what the writing is read as is not part of the structure: it is `unquoted_written`, and
it follows from the same of a single piece.
-/

set_option autoImplicit false

namespace MarkupTemplate

namespace Attributes

/-- A text in quotes of a kind that it does not have. -/
structure Piece where
  quote : Char
  inside : Text
  isQuote : isQuote quote = true
  notMem : quote ∉ inside

/-- The inside between its quotes. -/
def Piece.written (p : Piece) : Text := p.quote :: p.inside ++ [p.quote]

/-- A value in one or more quoted pieces. -/
structure Encoding where
  first : Piece
  more : List Piece

namespace Encoding

def pieces (e : Encoding) : List Piece := e.first :: e.more

def written (e : Encoding) : Text := e.pieces.flatMap Piece.written

def value (e : Encoding) : Text := e.pieces.flatMap Piece.inside

/-- An encoding under a key. -/
def writtenUnder (key : Text) (e : Encoding) : Text := key ++ '=' :: e.written

end Encoding

/-! ## Encodings of a text

One character to a piece is enough: for each there is a quote that it is not. -/

/-- The quotes for a character. -/
def Piece.ofChar (c : Char) : Piece :=
  if h : c = '"' then ⟨'\'', [c], by decide, by simp [h]⟩
  else ⟨'"', [c], by decide, by simpa using Ne.symm h⟩

theorem exists_encoding (value : Text) : ∃ e : Encoding, e.value = value := by
  refine ⟨⟨⟨'"', [], by decide, by simp⟩, value.map Piece.ofChar⟩, ?_⟩
  have hinside : ∀ c, (Piece.ofChar c).inside = [c] := by
    intro c
    unfold Piece.ofChar
    split <;> rfl
  simp [Encoding.value, Encoding.pieces, List.flatMap_map, hinside]

/-! ## Quotes in an encoding

Three things are followed through a text at once: which quote is open behind it, what stands outside
of quotes, and what is left without them. -/

theorem foldl_nextQuote_inside {q : Char} {s : Text} (hs : q ∉ s) :
    s.foldl nextQuote (some q) = some q := by
  induction s with
  | nil => rfl
  | cons c s ih =>
    rw [List.mem_cons, not_or] at hs
    rw [List.foldl_cons, nextQuote, if_neg (Ne.symm hs.1), ih hs.2]

theorem outside_inside {P : Char → Prop} {q : Char} {s : Text} (hs : q ∉ s) :
    Outside P (some q) s := by
  induction s with
  | nil => trivial
  | cons c s ih =>
    rw [List.mem_cons, not_or] at hs
    refine ⟨nofun, ?_⟩
    rw [nextQuote, if_neg (Ne.symm hs.1)]
    exact ih hs.2

theorem unquoted_inside {q : Char} {s : Text} (hs : q ∉ s) : unquoted (some q) s = s := by
  induction s with
  | nil => rfl
  | cons c s ih =>
    rw [List.mem_cons, not_or] at hs
    rw [unquoted, if_pos (by rw [nextQuote, if_neg (Ne.symm hs.1)]), ih hs.2]

namespace Piece

variable (p : Piece)

theorem nextQuote_quote : nextQuote .none p.quote = some p.quote := if_pos p.isQuote

theorem foldl_written : p.written.foldl nextQuote .none = .none := by
  rw [written, List.cons_append, List.foldl_cons, nextQuote_quote, List.foldl_append,
    foldl_nextQuote_inside p.notMem]
  simp [nextQuote]

theorem outside_written : Outside (MarkupTemplate.isQuote · = true) .none p.written := by
  rw [written, List.cons_append]
  refine ⟨fun _ => p.isQuote, ?_⟩
  rw [nextQuote_quote, outside_append, foldl_nextQuote_inside p.notMem]
  exact ⟨outside_inside p.notMem, nofun, trivial⟩

theorem unquoted_written : unquoted .none p.written = p.inside := by
  rw [written, List.cons_append, unquoted, nextQuote_quote, if_neg (by simp), unquoted_append,
    foldl_nextQuote_inside p.notMem, unquoted_inside p.notMem]
  simp [unquoted, nextQuote]

end Piece

/-- The pieces of an encoding close their quotes, have only quotes outside of them, and leave their
insides. -/
theorem pieces_written (pieces : List Piece) :
    (pieces.flatMap Piece.written).foldl nextQuote .none = .none ∧
      Outside (isQuote · = true) .none (pieces.flatMap Piece.written) ∧
      unquoted .none (pieces.flatMap Piece.written) = pieces.flatMap Piece.inside := by
  induction pieces with
  | nil => exact ⟨rfl, trivial, rfl⟩
  | cons p pieces ih =>
    obtain ⟨hclosed, hout, hvalue⟩ := ih
    simp only [List.flatMap_cons]
    refine ⟨?_, outside_append.mpr ⟨p.outside_written, ?_⟩, ?_⟩
    · rw [List.foldl_append, p.foldl_written, hclosed]
    · rw [p.foldl_written]
      exact hout
    · rw [unquoted_append, p.foldl_written, hvalue, p.unquoted_written]

namespace Encoding

variable (e : Encoding) {key : Text}

/-- An encoding is a single attribute: no blank in it is outside of quotes. -/
theorem isAttribute_written : IsAttribute e.written := by
  obtain ⟨hclosed, hout, -⟩ := pieces_written e.pieces
  exact ⟨List.cons_ne_nil _ _, hclosed, hout.imp fun c hc => isBlank_of_isQuote hc⟩

/-- An encoding has no key, as no separator in it is outside of quotes. -/
theorem not_names_written (pair : Text × Text) : ¬Names e.written pair := by
  rintro ⟨front, behind, heq, hfront, -⟩
  obtain ⟨-, hout, -⟩ := pieces_written e.pieces
  have hseparator : Outside (isQuote · = true) .none (front ++ '=' :: behind) := heq ▸ hout
  exact absurd ((outside_append.mp hseparator).2.1 hfront) (by decide)

theorem unquoted_written : unquoted .none e.written = e.value := (pieces_written e.pieces).2.2

theorem foldl_key (hk : isKey key = true) : key.foldl nextQuote .none = .none :=
  foldl_nextQuote_plain isOpenQuote_none fun c hc =>
    isQuote_of_isKeyCharacter (isKeyCharacter_of_isKey hk c hc)

theorem isAttribute_writtenUnder (hk : isKey key = true) : IsAttribute (e.writtenUnder key) := by
  have hwritten := e.isAttribute_written
  have hseparator : nextQuote .none '=' = .none := by simp [nextQuote, isQuote]
  refine ⟨by simp [writtenUnder], ?_, outside_append.mpr ⟨?_, ?_⟩⟩
  · rw [writtenUnder, List.foldl_append, foldl_key hk, List.foldl_cons, hseparator,
      hwritten.closed]
  · exact outside_of_forall fun c hc => isBlank_of_isKeyCharacter (isKeyCharacter_of_isKey hk c hc)
  · rw [foldl_key hk]
    refine ⟨fun _ => by decide, ?_⟩
    rw [hseparator]
    exact hwritten.together

/-- An encoding under a key is the encoded value under that key. -/
theorem names_writtenUnder (hk : isKey key = true) : Names (e.writtenUnder key) (key, e.value) := by
  have hkey : unquoted .none key = key :=
    unquoted_plain fun c hc => isQuote_of_isKeyCharacter (isKeyCharacter_of_isKey hk c hc)
  have hnames := Names.append (foldl_key hk) (hkey.symm ▸ hk) e.written
  rwa [hkey, unquoted_written] at hnames

end Encoding

/-! ## Rows of encodings

Encodings with blanks between them, with keys or without. -/

/-- **Attributes are read as they were written.** Every text can be written in quoted pieces. Texts
written so, with blanks between them, are the positional attributes of the row, and under keys they
are its named ones. Any other text is read as attributes of one kind too, or it is refused, since a
quote stays open or since it has attributes of both kinds. -/
theorem parse_encoded (tag : Text) :
    (∀ value : Text, ∃ e : Encoding, e.value = value) ∧
    (∀ (row : List Encoding) (t : Text), Spaced (row.map Encoding.written) t →
      parse tag t '=' = .ok (.ofValues (row.map Encoding.value))) ∧
    (∀ (row : List (Text × Encoding)) (t : Text), (∀ entry ∈ row, isKey entry.1 = true) →
      Spaced (row.map fun entry => entry.2.writtenUnder entry.1) t →
      parse tag t '=' = .ok (.ofPairs (row.map fun entry => (entry.1, entry.2.value)))) ∧
    ∀ t : Text, Reads tag t (parse tag t '=') := by
  refine ⟨exists_encoding, fun row t ht => ?_, fun row t hkeys ht => ?_, reads_parse tag⟩
  · have hvalues : (row.map Encoding.written).map (unquoted .none) = row.map Encoding.value := by
      rw [List.map_map]
      exact List.map_congr_left fun e _ => e.unquoted_written
    rw [← hvalues]
    exact parse_unnamed ht (List.forall_mem_map.mpr fun e _ => e.isAttribute_written)
      (List.forall_mem_map.mpr fun e _ => e.not_names_written)
  · refine parse_named ht (List.forall_mem_map.mpr fun entry hentry => ?_) ?_
    · exact entry.2.isAttribute_writtenUnder (hkeys entry hentry)
    · rw [List.forall₂_map_left_iff, List.forall₂_map_right_iff, List.forall₂_same]
      exact fun entry hentry => entry.2.names_writtenUnder (hkeys entry hentry)

/-- The same key twice, once with a value that has both quotes, a blank and a separator. -/
theorem parse_encoded_twice :
    parse [] "k='a = \"'\"'\"  k=\"\"".toList '=' =
      .ok (.named [("k".toList, "a = \"'".toList), ("k".toList, [])]) := by
  -- Two pieces for the first value, since it has quotes of both kinds.
  let e : Encoding :=
    ⟨⟨'\'', "a = \"".toList, by decide, by decide⟩, [⟨'"', "'".toList, by decide, by decide⟩]⟩
  let empty : Encoding := ⟨⟨'"', [], by decide, by decide⟩, []⟩
  obtain ⟨-, -, hnamed, -⟩ := parse_encoded []
  have hblank : ∀ c ∈ ("  k=\"\"".toList : Text).head?, isBlank c = true := by
    rintro c ⟨⟩
    rfl
  have hend : ∀ c ∈ ([] : Text).head?, isBlank c = true := by
    rintro c ⟨⟩
  exact hnamed [("k".toList, e), ("k".toList, empty)] _ (by decide)
    (.item hblank (.blank (by decide) (.blank (by decide) (.item hend .nil))))

end Attributes

end MarkupTemplate
