import MarkupTemplate.Proofs.Control.Substitution
import MarkupTemplate.Proofs.Tag.Content

/-!
# The flow of text

The scanner hands over the text of a template in **runs**. A macro cuts off the run in front of it,
and what it appends begins a new one; text only joins the text before where no tag stands between
them. `Term.flow` is how the text of a control term comes in.

However it is cut, all of it together is the meaning of the term (`content_flow`). Whoever keeps the
last run alone has all of it just if it came in one run (`getLast?_trim_eq_iff`).

A flow is a semantics of terms beside `denote`, finer than that one: it also says where the text is
cut. It knows nothing of machines and readers, so what is proved here is about terms alone.
-/

set_option autoImplicit false

namespace MarkupTemplate

/-! ## Blanks -/

theorem Text.countP_trim (t : Text) :
    (Text.trim t).countP (fun c => !isBlank c) = t.countP fun c => !isBlank c := by
  obtain ⟨lead, tail, hsplit, hlead, htail⟩ := Text.exists_trim t
  have hnone : ∀ s : Text, (∀ c ∈ s, isBlank c = true) → s.countP (fun c => !isBlank c) = 0 :=
    fun s hs => List.countP_eq_zero.mpr fun c hc => by simp [hs c hc]
  have hcount := congrArg (List.countP fun c => !isBlank c) hsplit
  rw [List.countP_append, List.countP_append, hnone lead hlead, hnone tail htail] at hcount
  omega

/-- A text is blank if there is nothing to count in it. -/
theorem Text.isBlankText_iff_countP {t : Text} :
    Text.isBlankText t = true ↔ t.countP (fun c => !isBlank c) = 0 := by
  simp [Text.isBlankText, List.countP_eq_zero]

namespace Control

/-! ## Flows -/

/-- Text as it comes in: the runs that were handed over, and the text since. -/
structure Flow where
  runs : List Text := []
  current : Text := []
deriving DecidableEq

namespace Flow

/-- All the text of a flow, without the cuts. -/
def content (f : Flow) : Text := f.runs.flatten ++ f.current

/-- More text behind that at hand, which is not cut off from it. -/
def add (f : Flow) (t : Text) : Flow := { f with current := f.current ++ t }

/-- The flow in front of a tag: the text since the last one is handed over, if there is some. -/
def flush (f : Flow) : Flow := if f.current = [] then f else ⟨f.runs ++ [f.current], []⟩

/-- Whether no run is blank. The scanner keeps to that: it hands over nothing that is blank, and has
nothing at hand that is, but for nothing at all. -/
structure Inked (f : Flow) : Prop where
  runs : ∀ run ∈ f.runs, Text.isBlankText run = false
  current : Text.isBlankText f.current = true → f.current = []

variable {f : Flow} {t : Text}

@[simp] theorem content_add (f : Flow) (t : Text) : (f.add t).content = f.content ++ t := by
  simp [content, add]

/-- Handing over the text at hand loses nothing. -/
@[simp] theorem content_flush (f : Flow) : f.flush.content = f.content := by
  unfold flush
  split
  · rfl
  · simp [content]

@[simp] theorem current_flush (f : Flow) : f.flush.current = [] := by
  unfold flush
  split
  · next h => exact h
  · rfl

/-- What was handed over in the end is all of the text. -/
theorem flatten_runs_flush (f : Flow) : f.flush.runs.flatten = f.content := by
  rw [← content_flush, content, current_flush, List.append_nil]

/-- If each step brings in a text, all of them bring in those texts in a row. -/
theorem content_foldl {α : Type} {l : List α} {step : α → Flow → Flow} {text : α → Text}
    (h : ∀ a ∈ l, ∀ f, (step a f).content = f.content ++ text a) (f : Flow) :
    (l.foldl (fun f a => step a f) f).content = f.content ++ l.flatMap text := by
  induction l generalizing f with
  | nil => simp
  | cons a l ih =>
    obtain ⟨ha, hl⟩ := List.forall_mem_cons.mp h
    rw [List.foldl_cons, ih hl, ha, List.flatMap_cons, List.append_assoc]

theorem inked_empty : ({} : Flow).Inked := ⟨by simp, fun _ => rfl⟩

theorem Inked.add (h : f.Inked) (ht : Text.isBlankText t = false) : (f.add t).Inked where
  runs := h.runs
  current hall := by
    rw [Flow.add, Text.isBlankText, List.all_append, Bool.and_eq_true] at hall
    rw [Text.isBlankText, hall.2] at ht
    cases ht

theorem Inked.isBlankText (h : f.Inked) (hne : f.current ≠ []) :
    Text.isBlankText f.current = false :=
  Bool.eq_false_iff.mpr fun hall => hne (h.current hall)

theorem Inked.flush (h : f.Inked) : f.flush.Inked := by
  unfold Flow.flush
  split
  · exact h
  · next hne =>
    refine ⟨fun run hrun => ?_, fun _ => rfl⟩
    rcases List.mem_append.mp hrun with hrun | hrun
    · exact h.runs run hrun
    · rw [List.mem_singleton.mp hrun]
      exact h.isBlankText hne

end Flow

/-! ## The last run

Here it is needed that no run is blank: two runs one of which is blank could come to the same text
as one of them alone. -/

/-- **The last run is all of the text just if there is no other.** -/
theorem getLast?_trim_eq_iff {runs : List Text} (h : ∀ run ∈ runs, Text.isBlankText run = false) :
    runs.getLast?.map Text.trim =
        (if runs.flatten = [] then none else some (Text.trim runs.flatten)) ↔
      runs.length ≤ 1 := by
  rcases List.eq_nil_or_concat runs with rfl | ⟨before, last, rfl⟩
  · simp
  · rw [List.concat_eq_append] at h ⊢
    have hlast : Text.isBlankText last = false := h last (by simp)
    have hne : (before ++ [last]).flatten ≠ [] := by
      intro hnil
      have hempty : last = [] := List.flatten_eq_nil_iff.mp hnil last (by simp)
      rw [hempty] at hlast
      cases hlast
    rw [if_neg hne, List.getLast?_concat, Option.map_some, Option.some.injEq,
      List.flatten_append, List.flatten_singleton, List.length_append, List.length_singleton]
    constructor
    · intro heq
      -- The runs in front have no ink in them, as trimming takes none away.
      have hcount := congrArg (List.countP fun c => !isBlank c) heq
      rw [Text.countP_trim, Text.countP_trim, List.countP_append] at hcount
      cases before with
      | nil => simp
      | cons first before =>
        have hfirst : Text.isBlankText first = false := h first (by simp)
        have hblank : Text.isBlankText first = true := by
          rw [Text.isBlankText_iff_countP]
          rw [List.flatten_cons, List.countP_append] at hcount
          omega
        rw [hblank] at hfirst
        cases hfirst
    · intro hlength
      obtain rfl : before = [] := List.length_eq_zero_iff.mp (by omega)
      rfl

/-! ## Terms -/

/-- How the text of a term comes in behind other text: a macro cuts off what is in front of it. What
follows a macro joins what the macro has brought in last, as nothing is cut behind it. -/
def Term.flow (given : Values) : Term → Flow → Flow
  | empty, f => f
  | text t, f => f.add t
  | use name, f => f.add ((given name).getD [])
  | append first second, f => second.flow given (first.flow given f)
  | conditional holds body, f => if holds then body.flow given f.flush else f.flush
  | choice holds onTrue onFalse, f =>
    if holds then onTrue.flow given f.flush else onFalse.flow given f.flush
  | repeated times body, f =>
    (List.replicate times (body.flow given)).foldl (fun f iteration => iteration f) f.flush
  | forEach name values body, f =>
    values.foldl (fun f value => body.flow (given.give name value) f) f.flush

/-- The runs of a whole term. -/
def Term.runs (t : Term) : List Text := (t.flow (fun _ => none) {}).flush.runs

/-- Nothing of the text of a term is lost where it comes in. -/
theorem Term.content_flow (t : Term) (given : Values) (f : Flow) :
    (t.flow given f).content = f.content ++ t.denote given := by
  induction t generalizing given f with
  | empty => exact (List.append_nil _).symm
  | text s => exact f.content_add s
  | use name => exact f.content_add _
  | append first second ihf ihs => rw [flow, ihs, ihf, denote, List.append_assoc]
  | conditional holds body ih =>
    cases holds with
    | true => exact (ih given f.flush).trans (by rw [Flow.content_flush]; rfl)
    | false => exact (Flow.content_flush f).trans (List.append_nil _).symm
  | choice holds onTrue onFalse iht ihf =>
    cases holds with
    | true => exact (iht given f.flush).trans (by rw [Flow.content_flush]; rfl)
    | false => exact (ihf given f.flush).trans (by rw [Flow.content_flush]; rfl)
  -- All iterations add the same, and a loop adds them one after another.
  | repeated times body ih =>
    have hiteration : ∀ iteration ∈ List.replicate times (body.flow given), ∀ f : Flow,
        (iteration f).content = f.content ++ body.denote given := fun iteration hmem f => by
      rw [List.eq_of_mem_replicate hmem, ih given f]
    rw [flow, Flow.content_foldl hiteration, Flow.content_flush, denote, List.flatMap_replicate]
  | forEach name values body ih =>
    rw [flow, Flow.content_foldl fun value _ f => ih (given.give name value) f,
      Flow.content_flush, denote]

/-- All runs of a term together are its meaning. -/
theorem Term.flatten_runs (t : Term) : t.runs.flatten = t.meaning := by
  rw [runs, Flow.flatten_runs_flush, content_flow]
  rfl

end Control

end MarkupTemplate
