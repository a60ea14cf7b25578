import Mathlib.Data.List.Forall2
import Mathlib.Data.List.Induction
import MarkupTemplate.Proofs.Tag.Setting

/-!
# The attributes in a text

The reader of attributes goes over a text once, character by character. What it reads can be said
without it. Cut the text at the blanks outside of quotes (`Spaced`), which is possible just if all
quotes are closed. Each piece is an attribute, and its quotes are dropped (`unquoted`). It is named
if a separator stands outside of quotes behind what is a key then, and there is no other way to take
it (`Names.unique`): a key has no separator, so only the first one can end a key.

`reads_parse` says this of all texts. The attributes of a tag have a single kind, and they are
refused for two reasons only: a quote stays open, or some of them are named and some are not.

The reader keeps the item under way in a record, with its key, its value so far and the open quote.
`itemOf` is what this comes to for one attribute, and `itemOf_cases` takes the record out of the
account, by an induction on the attribute from its end.
-/

set_option autoImplicit false

namespace MarkupTemplate

/-! ## The walk over quotes

Which quote is open is a walk over the text, and so is what stands outside of quotes and what a text
is without them. All three come apart where a text is cut. -/

/-- Whether the characters of a text in front of which no quote is open have a property. -/
def Outside (P : Char → Prop) : Option Char → Text → Prop
  | _, [] => True
  | quote, c :: t => (quote = none → P c) ∧ Outside P (nextQuote quote c) t

/-- A text without the quotes that open and close in it. -/
def unquoted : Option Char → Text → Text
  | _, [] => []
  | quote, c :: t =>
    if nextQuote quote c = quote then c :: unquoted quote t else unquoted (nextQuote quote c) t

section

variable {P Q : Char → Prop} {quote : Option Char} {s t : Text}

theorem outside_append :
    Outside P quote (s ++ t) ↔ Outside P quote s ∧ Outside P (s.foldl nextQuote quote) t := by
  induction s generalizing quote with
  | nil => simp [Outside]
  | cons c s ih => simp only [List.cons_append, Outside, ih, List.foldl_cons, and_assoc]

theorem Outside.imp (h : Outside P quote t) (hPQ : ∀ c, P c → Q c) : Outside Q quote t := by
  induction t generalizing quote with
  | nil => trivial
  | cons c t ih => exact ⟨fun hquote => hPQ c (h.1 hquote), ih h.2⟩

theorem outside_of_forall (h : ∀ c ∈ t, P c) : Outside P quote t := by
  induction t generalizing quote with
  | nil => trivial
  | cons c t ih =>
    obtain ⟨hc, ht⟩ := List.forall_mem_cons.mp h
    exact ⟨fun _ => hc, ih ht⟩

/-- Dropping quotes goes on behind a cut with the quote that is open there. -/
theorem unquoted_append :
    unquoted quote (s ++ t) = unquoted quote s ++ unquoted (s.foldl nextQuote quote) t := by
  induction s generalizing quote with
  | nil => rfl
  | cons c s ih =>
    rw [List.cons_append, unquoted, unquoted, List.foldl_cons]
    split
    · next hsame => rw [ih, hsame]; rfl
    · exact ih

theorem unquoted_plain (ht : ∀ c ∈ t, isQuote c = false) : unquoted none t = t := by
  induction t with
  | nil => rfl
  | cons c t ih =>
    obtain ⟨hc, ht⟩ := List.forall_mem_cons.mp ht
    rw [unquoted, if_pos (by simp [nextQuote, hc]), ih ht]

end

namespace Attributes

/-! ## Attributes in a text

What a row of attributes is, what an attribute is, and what its name is, without the reader. -/

/-- Whether a text is a single attribute: there is something in it, its quotes are closed, and no
blank stands outside of them. -/
structure IsAttribute (w : Text) : Prop where
  nonempty : w ≠ []
  closed : w.foldl nextQuote .none = .none
  together : Outside (isBlank · = false) .none w

/-- Whether a text has a row of pieces with blanks around them: behind each of them there is a blank
or the end of the text. -/
inductive Spaced : List Text → Text → Prop
  | nil : Spaced [] []
  | blank {c : Char} {ws : List Text} {t : Text} (hc : isBlank c = true) (h : Spaced ws t) :
      Spaced ws (c :: t)
  | item {w : Text} {ws : List Text} {t : Text} (ht : ∀ c ∈ t.head?, isBlank c = true)
      (h : Spaced ws t) : Spaced (w :: ws) (w ++ t)

/-- Whether an attribute is a value under a key: a separator stands outside of quotes, and the text
in front of it, without its quotes, is the key. -/
def Names (w : Text) (pair : Text × Text) : Prop :=
  ∃ front behind, w = front ++ '=' :: behind ∧ front.foldl nextQuote .none = .none ∧
    isKey pair.1 = true ∧ pair = (unquoted .none front, unquoted .none behind)

variable {tag t w : Text} {ws : List Text} {pair : Text × Text}

/-- A text whose quotes are closed is a row of attributes. -/
theorem exists_spaced (ht : t.foldl nextQuote .none = .none) :
    ∃ ws, Spaced ws t ∧ ∀ w ∈ ws, IsAttribute w := by
  -- The attribute at the front is what grows by a character in the induction, so it is split
  -- off.
  have hfront : ∀ (t : Text) (quote : Option Char), t.foldl nextQuote quote = .none →
      ∃ w rest ws, t = w ++ rest ∧ w.foldl nextQuote quote = .none ∧
        Outside (isBlank · = false) quote w ∧ (∀ c ∈ rest.head?, isBlank c = true) ∧
        Spaced ws rest ∧ ∀ w ∈ ws, IsAttribute w := by
    intro t
    induction t with
    | nil => exact fun quote ht => ⟨[], [], [], rfl, ht, trivial, by simp, .nil, by simp⟩
    | cons c t ih =>
      intro quote ht
      obtain ⟨w, rest, ws, rfl, hclosed, hout, hrest, hspaced, hws⟩ := ih _ ht
      by_cases hend : quote = .none ∧ isBlank c = true
      · -- A blank outside of quotes stands in front of the attribute behind it, if there is one.
        obtain ⟨rfl, hc⟩ := hend
        have hstep : nextQuote .none c = .none := by simp [nextQuote, isQuote_of_isBlank hc]
        rw [hstep] at hclosed hout
        have hblank : ∀ d ∈ (c :: (w ++ rest)).head?, isBlank d = true := by simpa using hc
        by_cases hw : w = []
        · subst hw
          exact ⟨[], _, ws, rfl, rfl, trivial, hblank, .blank hc hspaced, hws⟩
        · exact ⟨[], _, w :: ws, rfl, rfl, trivial, hblank, .blank hc (.item hrest hspaced),
            List.forall_mem_cons.mpr ⟨⟨hw, hclosed, hout⟩, hws⟩⟩
      · have hc : quote = .none → isBlank c = false := fun hquote =>
          Bool.eq_false_iff.mpr fun hblank => hend ⟨hquote, hblank⟩
        exact ⟨c :: w, rest, ws, rfl, hclosed, ⟨hc, hout⟩, hrest, hspaced, hws⟩
  obtain ⟨w, rest, ws, rfl, hclosed, hout, hrest, hspaced, hws⟩ := hfront t .none ht
  by_cases hw : w = []
  · subst hw
    exact ⟨ws, hspaced, hws⟩
  · exact ⟨w :: ws, .item hrest hspaced, List.forall_mem_cons.mpr ⟨⟨hw, hclosed, hout⟩, hws⟩⟩

/-! ## What is read

The reader comes to the end of one attribute after another, and to nothing else. -/

theorem quote_foldl_push (separator : Char) (p : Pending) (w : Text) :
    (w.foldl (Pending.push separator) p).quote = w.foldl nextQuote p.quote := by
  induction w generalizing p with
  | nil => rfl
  | cons c w ih => rw [List.foldl_cons, ih, Pending.quote_push, List.foldl_cons]

/-- An item under way takes in a text without blanks outside of quotes. -/
theorem items_append {separator : Char} {p : Pending}
    (h : Outside (isBlank · = false) p.quote w) (t : Text) :
    items separator (some p) (w ++ t) =
      items separator (some (w.foldl (Pending.push separator) p)) t := by
  induction w generalizing p with
  | nil => rfl
  | cons c w ih =>
    have hgoes : ¬(p.quote.isNone = true ∧ isBlank c = true) := by
      rintro ⟨hquote, hc⟩
      rw [h.1 (Option.isNone_iff_eq_none.mp hquote)] at hc
      cases hc
    rw [List.cons_append, items, if_neg hgoes, ih (by rw [Pending.quote_push]; exact h.2)]
    rfl

/-- An item ends at a blank, and at the end of the text. -/
theorem items_ended {separator : Char} {p : Pending} (hp : p.quote = .none)
    (ht : ∀ c ∈ t.head?, isBlank c = true) :
    items separator (some p) t = (items separator .none t).map (p.item :: ·) := by
  cases t with
  | nil => simp [items, hp]
  | cons c t =>
    have hc : isBlank c = true := ht c rfl
    rw [items, items, if_pos hc, if_pos ⟨by rw [hp]; rfl, hc⟩]

/-- The item that is read from an attribute. -/
def itemOf (w : Text) : Item := (w.foldl (Pending.push '=') {}).item

/-- A single attribute is read as one item, and reading goes on behind it. -/
theorem items_attribute (hw : IsAttribute w) (ht : ∀ c ∈ t.head?, isBlank c = true) :
    items '=' .none (w ++ t) = (items '=' .none t).map (itemOf w :: ·) := by
  -- An attribute begins with something that is no blank, so nothing is skipped in front of it.
  have hstart : items '=' .none (w ++ t) = items '=' (some {}) (w ++ t) := by
    cases w with
    | nil => exact absurd rfl hw.nonempty
    | cons c w =>
      have hc : isBlank c = false := hw.together.1 rfl
      rw [List.cons_append, items, if_neg (by simp [hc]), items, if_neg (by simp [hc])]
  rw [hstart, items_append hw.together, items_ended _ ht]
  · rfl
  · rw [quote_foldl_push]
    exact hw.closed

/-- A row of attributes is read as a row of items. -/
theorem items_spaced (h : Spaced ws t) (hws : ∀ w ∈ ws, IsAttribute w) :
    items '=' .none t = some (ws.map itemOf) := by
  induction h with
  | nil => rfl
  | blank hc _ ih => rw [items, if_pos hc, ih hws]
  | item ht _ ih =>
    obtain ⟨hw, hws⟩ := List.forall_mem_cons.mp hws
    rw [items_attribute hw ht, ih hws]
    rfl

/-! ## Names

An attribute has a name in one way at most, and the reader finds it. -/

theorem Names.append {front : Text} (hfront : front.foldl nextQuote .none = .none)
    (hkey : isKey (unquoted .none front) = true) (behind : Text) :
    Names (front ++ '=' :: behind) (unquoted .none front, unquoted .none behind) :=
  ⟨front, behind, rfl, hfront, hkey, rfl⟩

/-- What is behind the separator grows with the attribute. -/
theorem Names.concat (h : Names w pair) (c : Char) :
    Names (w ++ [c]) (pair.1, pair.2 ++ unquoted (w.foldl nextQuote .none) [c]) := by
  obtain ⟨front, behind, rfl, hfront, hkey, rfl⟩ := h
  refine ⟨front, behind ++ [c], by simp, hfront, hkey, ?_⟩
  rw [unquoted_append, List.foldl_append, hfront]
  rfl

/-- A name in a longer text is an older one, or the separator is the last character. -/
theorem Names.of_concat {c : Char} (h : Names (w ++ [c]) pair) :
    (∃ pair', Names w pair') ∨
      c = '=' ∧ w.foldl nextQuote .none = .none ∧ isKey (unquoted .none w) = true := by
  obtain ⟨front, behind, heq, hfront, hkey, rfl⟩ := h
  cases behind using List.reverseRecOn with
  | nil =>
    obtain ⟨rfl, hc⟩ := List.append_inj' heq rfl
    exact .inr ⟨List.singleton_inj.mp hc, hfront, hkey⟩
  | append_singleton behind d =>
    rw [← List.cons_append, ← List.append_assoc] at heq
    obtain ⟨rfl, -⟩ := List.append_inj' heq rfl
    exact .inl ⟨_, .append hfront hkey behind⟩

/-- A character ends the key of the item under way, or its value grows by the character unless that
is a quote. -/
theorem item_push (p : Pending) (c : Char) :
    (p.push '=' c).item =
      if p.quote = .none ∧ c = '=' ∧ p.key.isNone ∧ isKey p.value = true then ⟨some p.value, []⟩
      else ⟨p.key, p.value ++ unquoted p.quote [c]⟩ := by
  unfold Pending.push
  cases hquote : p.quote with
  | some q =>
    by_cases hc : c = q
    · simp [hc, unquoted, nextQuote, Pending.item]
    · simp [hc, unquoted, nextQuote, Pending.item]
  | none =>
    cases hc : isQuote c with
    | true =>
      have hne : c ≠ '=' := by
        rintro rfl
        cases hc
      simp [hne, hc, unquoted, nextQuote, Pending.item]
    | false =>
      by_cases hkey : c = '=' ∧ p.key = .none ∧ isKey p.value = true
      · simp [hkey, Pending.item]
      · simp [hkey, hc, unquoted, nextQuote, Pending.item]

/-- The item of an attribute has a key just if the attribute is named, and then it has that key and
value. Otherwise its value is the whole attribute. -/
theorem itemOf_cases (w : Text) :
    (itemOf w = ⟨.none, unquoted .none w⟩ ∧ ∀ pair, ¬Names w pair) ∨
      ∃ pair, itemOf w = ⟨some pair.1, pair.2⟩ ∧ Names w pair := by
  induction w using List.reverseRecOn with
  | nil => exact .inl ⟨rfl, by rintro pair ⟨front, behind, heq, -⟩; simp at heq⟩
  | append_singleton w c ih =>
    have hitem : itemOf (w ++ [c]) = ((w.foldl (Pending.push '=') {}).push '=' c).item := by
      rw [itemOf, List.foldl_append]
      rfl
    have hquote := quote_foldl_push '=' {} w
    rw [hitem, item_push, hquote]
    -- One character more may be the separator that ends the key; behind a key it only adds to
    -- the value.
    rcases ih with ⟨hread, hnone⟩ | ⟨pair, hread, hnames⟩
    · obtain ⟨hkey, hvalue⟩ := Item.mk.inj hread
      rw [hkey, hvalue]
      by_cases hend : w.foldl nextQuote .none = .none ∧ c = '=' ∧
          isKey (unquoted .none w) = true
      · obtain ⟨hclosed, rfl, hisKey⟩ := hend
        exact .inr ⟨(unquoted .none w, []), if_pos ⟨hclosed, rfl, rfl, hisKey⟩,
          .append hclosed hisKey []⟩
      · refine .inl ⟨?_, fun pair hnames => ?_⟩
        · rw [if_neg fun h => hend ⟨h.1, h.2.1, h.2.2.2⟩, unquoted_append]
        · rcases hnames.of_concat with ⟨pair', hnames⟩ | ⟨hc, hclosed, hisKey⟩
          · exact hnone pair' hnames
          · exact hend ⟨hclosed, hc, hisKey⟩
    · obtain ⟨hkey, hvalue⟩ := Item.mk.inj hread
      rw [hkey, hvalue, if_neg (by simp)]
      exact .inr ⟨_, rfl, hnames.concat c⟩

/-- A text with a separator outside of quotes is no key. -/
theorem not_isKey_append {front : Text} (hfront : front.foldl nextQuote .none = .none)
    (behind : Text) : isKey (unquoted .none (front ++ '=' :: behind)) = false := by
  refine Bool.eq_false_iff.mpr fun hkey => ?_
  have hmem : '=' ∈ unquoted .none (front ++ '=' :: behind) := by
    rw [unquoted_append, hfront]
    exact List.mem_append_right _ List.mem_cons_self
  exact absurd (isKeyCharacter_of_isKey hkey _ hmem) (by decide)

/-- The key of an attribute ends at the first separator outside of quotes, if it has one at all. -/
theorem Names.unique {pair' : Text × Text} (h : Names w pair) (h' : Names w pair') :
    pair = pair' := by
  obtain ⟨front, behind, rfl, hfront, hkey, rfl⟩ := h
  obtain ⟨front', behind', heq, hfront', hkey', rfl⟩ := h'
  -- If one front were longer, it would have the separator behind the other.
  rcases List.append_eq_append_iff.mp heq with ⟨more, rfl, hrest⟩ | ⟨more, rfl, hrest⟩
  · cases more with
    | nil => rw [List.append_nil, (List.cons.inj hrest).2]
    | cons d more =>
      obtain ⟨rfl, -⟩ := List.cons.inj hrest
      exact absurd hkey' (by simp [not_isKey_append hfront])
  · cases more with
    | nil => rw [List.append_nil, (List.cons.inj hrest).2]
    | cons d more =>
      obtain ⟨rfl, -⟩ := List.cons.inj hrest
      exact absurd hkey (by simp [not_isKey_append hfront'])

theorem itemOf_of_not_names (h : ∀ pair, ¬Names w pair) : itemOf w = ⟨.none, unquoted .none w⟩ := by
  rcases itemOf_cases w with ⟨hread, -⟩ | ⟨pair, -, hnames⟩
  · exact hread
  · exact absurd hnames (h pair)

theorem Names.itemOf (h : Names w pair) : itemOf w = ⟨some pair.1, pair.2⟩ := by
  rcases itemOf_cases w with ⟨-, hnone⟩ | ⟨pair', hread, hnames⟩
  · exact absurd h (hnone pair)
  · rw [hread, h.unique hnames]

/-! ## Parsing

From the items to the attributes of a tag, which are all of one kind. -/

def ofValues : List Text → Attributes
  | [] => .none
  | values => .positional values

def ofPairs : List (Text × Text) → Attributes
  | [] => .none
  | pairs => .named pairs

@[simp] theorem pairs_ofPairs (pairs : List (Text × Text)) : (ofPairs pairs).pairs = pairs := by
  cases pairs <;> rfl

@[simp] theorem values_ofPairs (pairs : List (Text × Text)) : (ofPairs pairs).values = [] := by
  cases pairs <;> rfl

theorem parse_values {values : List Text}
    (h : items '=' .none t = some (values.map (⟨.none, ·⟩))) :
    parse tag t '=' = .ok (.ofValues values) := by
  have hvalues : valuesOf (values.map (⟨.none, ·⟩)) = values := by
    rw [valuesOf, List.filterMap_map]
    exact List.filterMap_some
  have hpairs : pairsOf (values.map (⟨.none, ·⟩)) = [] := by
    simp [pairsOf]
  rw [parse, h]
  dsimp only
  rw [hvalues, hpairs]
  cases values <;> rfl

theorem parse_pairs {pairs : List (Text × Text)}
    (h : items '=' .none t = some (pairs.map fun pair => ⟨some pair.1, pair.2⟩)) :
    parse tag t '=' = .ok (.ofPairs pairs) := by
  have hvalues : valuesOf (pairs.map fun pair => (⟨some pair.1, pair.2⟩ : Item)) = [] := by
    simp [valuesOf]
  have hpairs : pairsOf (pairs.map fun pair => (⟨some pair.1, pair.2⟩ : Item)) = pairs := by
    rw [pairsOf, List.filterMap_map]
    exact List.filterMap_some
  rw [parse, h]
  dsimp only
  rw [hvalues, hpairs]
  cases pairs <;> rfl

theorem parse_mixed {read : List Item} (h : items '=' .none t = some read)
    (hvalue : ∃ item ∈ read, item.key = .none) (hpair : ∃ item ∈ read, item.key ≠ .none) :
    parse tag t '=' = .error (.mixedAttributes tag) := by
  obtain ⟨item, hmem, hkey⟩ := hvalue
  obtain ⟨item', hmem', hkey'⟩ := hpair
  obtain ⟨key, hkey'⟩ := Option.ne_none_iff_exists'.mp hkey'
  -- Both lists have something in them, which is the last of the four cases.
  have hvalues : item.value ∈ valuesOf read :=
    List.mem_filterMap.mpr ⟨item, hmem, by simp [hkey]⟩
  have hpairs : (key, item'.value) ∈ pairsOf read :=
    List.mem_filterMap.mpr ⟨item', hmem', by simp [hkey']⟩
  obtain ⟨value, values, hvalues⟩ := List.exists_cons_of_ne_nil (List.ne_nil_of_mem hvalues)
  obtain ⟨pair, pairs, hpairs⟩ := List.exists_cons_of_ne_nil (List.ne_nil_of_mem hpairs)
  rw [parse, h]
  dsimp only
  rw [hvalues, hpairs]

section

variable (h : Spaced ws t) (hws : ∀ w ∈ ws, IsAttribute w)

include h hws

theorem parse_unnamed (hnone : ∀ w ∈ ws, ∀ pair, ¬Names w pair) :
    parse tag t '=' = .ok (.ofValues (ws.map (unquoted .none))) := by
  refine parse_values ?_
  rw [items_spaced h hws, List.map_map]
  exact congrArg some (List.map_congr_left fun w hw => itemOf_of_not_names (hnone w hw))

theorem parse_named {pairs : List (Text × Text)} (hpairs : List.Forall₂ Names ws pairs) :
    parse tag t '=' = .ok (.ofPairs pairs) := by
  refine parse_pairs ?_
  rw [items_spaced h hws]
  clear h hws
  induction hpairs with
  | nil => rfl
  | cons hnames _ ih => rw [List.map_cons, List.map_cons, hnames.itemOf, Option.some.inj ih]

end

/-- What a text is read as. There are two reasons to refuse it, a quote that stays open and
attributes of both kinds. -/
inductive Reads (tag t : Text) : Except Fault Attributes → Prop
  | unclosed (ht : t.foldl nextQuote .none ≠ .none) :
      Reads tag t (.error (.invalidAttributes tag ("unclosed quote in ".toList ++ Fault.quoted t)))
  | mixed {ws : List Text} (h : Spaced ws t) (hws : ∀ w ∈ ws, IsAttribute w)
      (hplain : ∃ w ∈ ws, ∀ pair, ¬Names w pair) (hnamed : ∃ w ∈ ws, ∃ pair, Names w pair) :
      Reads tag t (.error (.mixedAttributes tag))
  | values {ws : List Text} (h : Spaced ws t) (hws : ∀ w ∈ ws, IsAttribute w)
      (hplain : ∀ w ∈ ws, ∀ pair, ¬Names w pair) :
      Reads tag t (.ok (.ofValues (ws.map (unquoted .none))))
  | pairs {ws : List Text} {pairs : List (Text × Text)} (h : Spaced ws t)
      (hws : ∀ w ∈ ws, IsAttribute w) (hnamed : List.Forall₂ Names ws pairs) :
      Reads tag t (.ok (.ofPairs pairs))

/-- **Every text is read as what it should be read as.** -/
theorem reads_parse (tag t : Text) : Reads tag t (parse tag t '=') := by
  by_cases hclosed : t.foldl nextQuote .none = .none
  · obtain ⟨ws, hspaced, hws⟩ := exists_spaced hclosed
    -- None has a name, all have one, or there are both.
    by_cases hvalues : ∀ w ∈ ws, ∀ pair, ¬Names w pair
    · rw [parse_unnamed hspaced hws hvalues]
      exact .values hspaced hws hvalues
    by_cases hkeys : ∀ w ∈ ws, ∃ pair, Names w pair
    · choose! pairOf hpairOf using hkeys
      have hpairs := List.forall₂_map_right_iff.mpr (List.forall₂_same.mpr hpairOf)
      rw [parse_named hspaced hws hpairs]
      exact .pairs hspaced hws hpairs
    obtain ⟨plain, hmem, hplain⟩ : ∃ w ∈ ws, ∀ pair, ¬Names w pair := by simpa using hkeys
    obtain ⟨named, hmem', pair, hnamed⟩ : ∃ w ∈ ws, ∃ pair, Names w pair := by simpa using hvalues
    have hmixed : parse tag t '=' = .error (.mixedAttributes tag) := parse_mixed
      (items_spaced hspaced hws) ⟨_, List.mem_map_of_mem hmem, by rw [itemOf_of_not_names hplain]⟩
      ⟨_, List.mem_map_of_mem hmem', by rw [hnamed.itemOf]; simp⟩
    rw [hmixed]
    exact .mixed hspaced hws ⟨plain, hmem, hplain⟩ ⟨named, hmem', pair, hnamed⟩
  · have hnone : items '=' .none t = .none :=
      Option.eq_none_iff_forall_ne_some.mpr fun read h => hclosed (foldl_nextQuote h)
    rw [parse, hnone]
    exact .unclosed hclosed

end Attributes

end MarkupTemplate
