import MarkupTemplate.Proofs.Control.Enclosing

/-!
# Spellings of a name

Lenient reading relaxes letter case, but not everywhere alike. A tag is looked up by the lower-case
form of its name, in any script; a closing tag is compared with the tag that it closes ignoring
ASCII case. So two spellings of one name, under which the same element is registered, can fail to
close each other: they do just if they differ in more than the case of ASCII letters
(`parse_spelled`, `not_parse_spelled`).

The element has nothing in it, so the two tags are all that is scanned and the two comparisons are
all that is decided.
-/

set_option autoImplicit false

namespace MarkupTemplate

/-- Whether a machine is at rest and reads leniently, with the usual markers and with nobody
listening. -/
structure Machine.ForSpellings (machine : Machine) : Prop where
  lenient : machine.parser.settings.strict = false
  markers : machine.parser.settings.markers = {}
  atRest : machine.parser.atRest = machine.parser
  listeners : ∀ phase, machine.parser.listeners phase = []

/-- An element with nothing in it that is opened under one name and closed under another. -/
def spelled (opened closed : Text) : Text :=
  (TagToken.tag opened [] false).text ++ (TagToken.closing closed).text

/-- Names with the same lower-case form are names of the same tag. -/
theorem Registry.tagMaker?_congr (r : Registry) {name name' : Text}
    (h : Text.lower name = Text.lower name') : r.tagMaker? name' = r.tagMaker? name := by
  rw [tagMaker?, tagMaker?, h]

namespace Engine

variable {machine : Machine} {name name' kind : Text} {container : Bool} (r : Reader)
  (roots : List Node) (notices : List Notice)

/-! ## The two tags

The opening tag goes by the registry, the closing one by the tag that is open. -/

theorem readTag_opened (hmarkers : machine.parser.settings.markers = {}) (hname : name.IsWord)
    (helement : machine.registry.element? name = some (kind, container)) (fuel : Nat)
    (fragment : Text → Text → Engine Document) :
    readTag (fuel + 1) fragment (TagToken.tag name [] false).raw
        (machine.growing r [] roots notices) =
      .ok () (machine.growing r [.ofTag name [] false { kind, container }] roots notices) := by
  have hwritten : (TagToken.tag name [] false).IsWritten := ⟨hname, by simp⟩
  have hm : (machine.growing r [] roots notices).parser.settings.markers = {} := hmarkers
  have hshape : Shaping.shape (Shaping.applyTag (fuel + 1))
      (.ofTag name [] false { kind, container }) (machine.growing r [] roots notices) =
        .ok (.ofTag name [] false { kind, container }) (machine.growing r [] roots notices) :=
    Shaping.shape_of_ok rfl
  rw [readTag_tag hm hwritten helement, openNode, bind_of_ok hshape]
  rfl

/-- A closing tag that differs in the case of ASCII letters at most closes the element. -/
theorem closeParent_of_eqIgnoringCase (hlenient : machine.parser.settings.strict = false)
    (h : Text.eqIgnoringCase name name' = true) (kind : Text) (container : Bool) :
    closeParent name' (machine.growing r [.ofTag name [] false { kind, container }] roots notices) =
      .ok () (machine.growing r [] (roots ++ [.ofTag name [] false { kind, container }])
        notices) := by
  -- This is where lenient reading makes the difference.
  have hcloses : closes machine.parser.settings.strict name name' = true := by
    rw [hlenient, closes, if_neg (by simp), h]
  have hfinish : ∀ behind, finish (.ofTag name [] false { kind, container }) behind =
      .ok () behind := fun _ => rfl
  rw [closeParent, bind_of_ok (parser_eq _), Machine.growing_parents]
  dsimp only
  rw [bind_of_ok (isStrict_eq _), Machine.growing_settings]
  refine (congrFun (if_pos hcloses) _).trans ?_
  rw [bind_of_ok (modifyParser_eq _ _), bind_of_ok (hfinish _), attach_root rfl]
  rfl

/-- Any other closing tag is that of another element. -/
theorem closeParent_of_not_eqIgnoringCase (hlenient : machine.parser.settings.strict = false)
    (h : Text.eqIgnoringCase name name' = false) (kind : Text) (container : Bool) :
    closeParent name' (machine.growing r [.ofTag name [] false { kind, container }] roots notices) =
      .error (.failure { fault := .tagMismatch name name' })
        (machine.growing r [.ofTag name [] false { kind, container }] roots notices) := by
  have hcloses : ¬closes machine.parser.settings.strict name name' = true := by
    rw [hlenient, closes, if_neg (by simp), h]
    simp
  rw [closeParent, bind_of_ok (parser_eq _), Machine.growing_parents]
  dsimp only
  rw [bind_of_ok (isStrict_eq _), Machine.growing_settings]
  exact congrFun (if_neg hcloses) _

/-! ## The whole template

Two tags and the end: three turns, so three units of fuel are enough. -/

/-- The scanner comes to the closing tag with the element open, and goes on behind it. -/
theorem exists_scan_spelled (hmarkers : machine.parser.settings.markers = {})
    (hname : name.IsWord) (hname' : name'.IsWord)
    (helement : machine.registry.element? name = some (kind, container))
    (hr : r.unread = spelled name name') :
    ∃ r', r'.unread = [] ∧ ∀ fuel, scan (fuel + 3) [] (machine.growing r [] roots notices) =
      (closeParent name' >>= fun _ => scan (fuel + 1) [])
        (machine.growing r' [.ofTag name [] false { kind, container }] roots notices) := by
  have hm : ∀ r parents,
      (machine.growing r parents roots notices).parser.settings.markers = {} := fun _ _ => hmarkers
  have hopening : (TagToken.tag name [] false).IsWritten := ⟨hname, by simp⟩
  have hclosing : (TagToken.closing name').IsWritten := hname'
  obtain ⟨r₁, hr₁, hturn₁⟩ := exists_turn (hm r []) hopening hr
  let opened := machine.growing r₁ [.ofTag name [] false { kind, container }] roots notices
  have hunread : opened.parser.reader.unread = (TagToken.closing name').text ++ [] := by
    rw [List.append_nil]
    exact hr₁
  obtain ⟨r₂, hr₂, hturn₂⟩ := exists_turn (hm r₁ _) hclosing hunread
  -- Two turns: the first one opens the element, the second one comes upon the closing tag.
  refine ⟨r₂, hr₂, fun fuel => ?_⟩
  have hread : readTag (fuel + 2) (apart (scan (fuel + 2) [])) (TagToken.tag name [] false).raw
      (machine.growing r₁ [] roots notices) = .ok () opened :=
    readTag_opened r₁ roots notices hmarkers hname helement (fuel + 1) _
  rw [scan_succ, bind_of_ok (hturn₁ (fuel + 2)), goOn]
  refine (bind_of_ok hread).trans ?_
  rw [scan_succ, bind_of_ok (hturn₂ (fuel + 1)), goOn]
  exact bind_congr_of_eq (readTag_closing (hm r₂ _) hclosing (fuel + 1) _)

section

variable (h : machine.ForSpellings) (hname : name.IsWord) (hname' : name'.IsWord)
  (helement : machine.registry.element? name = some (kind, container)) (title : Text)

include h hname hname' helement

/-- If the spellings differ in the case of ASCII letters at most, the element is closed. -/
theorem parse_of_eqIgnoringCase (hsame : Text.eqIgnoringCase name name' = true) {fuel : Nat}
    (hle : 3 ≤ fuel) : parse fuel (spelled name name') title machine =
      .ok ⟨[.ofTag name [] false { kind, container }], []⟩ machine := by
  have htext : machine.parser.text = [] := (congrArg Parser.text h.atRest).symm
  obtain ⟨r, hr, hscan⟩ := exists_scan_spelled _ [] machine.notices h.markers hname hname' helement
    (unread_append_of_atRest h.atRest (spelled name name') title)
  rw [Machine.growing_of_atRest _ h.atRest] at hscan
  obtain ⟨more, rfl⟩ := Nat.exists_eq_add_of_le' hle
  have hclose := closeParent_of_eqIgnoringCase r [] machine.notices h.lenient hsame kind container
  have hend := (hscan more).trans ((bind_of_ok hclose).trans (scan_growing_end _ hr more))
  rw [← htext]
  exact parse_of_scan_atRest h.atRest h.listeners hend

/-- If they differ in more, the closing tag is refused. -/
theorem parse_of_not_eqIgnoringCase (hother : Text.eqIgnoringCase name name' = false) {fuel : Nat}
    (hle : 3 ≤ fuel) : ∃ e, e.fault = .tagMismatch name name' ∧
      parse fuel (spelled name name') title machine = .error (.failure e) machine := by
  obtain ⟨r, hr, hscan⟩ := exists_scan_spelled _ [] machine.notices h.markers hname hname' helement
    (unread_append_of_atRest h.atRest (spelled name name') title)
  rw [Machine.growing_of_atRest _ h.atRest] at hscan
  obtain ⟨more, rfl⟩ := Nat.exists_eq_add_of_le' hle
  have hclose := closeParent_of_not_eqIgnoringCase r [] machine.notices h.lenient hother kind
    container
  have hend := (hscan more).trans (bind_of_error hclose)
  refine ⟨({ fault := .tagMismatch name name' } : Error).locate r, Error.fault_locate _ r, ?_⟩
  rw [parse_of_scan_error (h.listeners .before) hend]
  show EStateM.Result.error _ { machine with parser := machine.parser.atRest } = _
  rw [h.atRest]
  rfl

/-- **A lenient parser takes another spelling of a name for the same tag, but not to close it**,
unless the spellings differ in the case of ASCII letters alone. -/
theorem parse_spelled (hlower : Text.lower name = Text.lower name') :
    machine.registry.tagMaker? name' = machine.registry.tagMaker? name ∧
      ∃ least, ∀ fuel, least ≤ fuel →
        (Text.eqIgnoringCase name name' = true → parse fuel (spelled name name') title machine =
          .ok ⟨[.ofTag name [] false { kind, container }], []⟩ machine) ∧
        (Text.eqIgnoringCase name name' = false → ∃ e, e.fault = .tagMismatch name name' ∧
          parse fuel (spelled name name') title machine = .error (.failure e) machine) := by
  refine ⟨machine.registry.tagMaker?_congr hlower, 3, fun fuel hle => ⟨fun hsame => ?_,
    fun hother => ?_⟩⟩
  · exact parse_of_eqIgnoringCase h hname hname' helement title hsame hle
  · exact parse_of_not_eqIgnoringCase h hname hname' helement title hother hle

end

/-- A lenient parser whose templates can have seasons. -/
def seasonMachine : Machine where
  registry := Registry.standard.registerTag "Été".toList (.native (.element none true))
  parser.settings.strict := false

theorem forSpellings_seasonMachine : seasonMachine.ForSpellings :=
  ⟨rfl, rfl, rfl, fun phase => by cases phase <;> rfl⟩

theorem element?_seasonMachine :
    seasonMachine.registry.element? "Été".toList = some ("Été".toList, true) := by
  decide +kernel

/-- The node of a season. -/
def season : Node := .ofTag "Été".toList [] false { kind := "Été".toList, container := true }

theorem isWord_season : Text.IsWord "Été".toList := by decide +kernel

/-- Only the letter in the middle has another case. -/
theorem parse_spelled_seasonMachine :
    Text.IsWord "Été".toList ∧ Text.IsWord "ÉTé".toList ∧
      Text.lower "Été".toList = Text.lower "ÉTé".toList ∧
      ∃ least, ∀ fuel, least ≤ fuel → parse fuel (spelled "Été".toList "ÉTé".toList) defaultTitle
        seasonMachine = .ok ⟨[season], []⟩ seasonMachine := by
  have hname' : Text.IsWord "ÉTé".toList := by decide +kernel
  have hlower : Text.lower "Été".toList = Text.lower "ÉTé".toList := by decide +kernel
  have hsame : Text.eqIgnoringCase "Été".toList "ÉTé".toList = true := by decide +kernel
  obtain ⟨-, least, hparse⟩ := parse_spelled forSpellings_seasonMachine isWord_season hname'
    element?_seasonMachine defaultTitle hlower
  exact ⟨isWord_season, hname', hlower, least, fun fuel hle => (hparse fuel hle).1 hsame⟩

/-- The first letter has another case, so the tag is that of the element and does not close it. -/
theorem not_parse_spelled :
    seasonMachine.parser.settings.strict = false ∧
      Text.IsWord "Été".toList ∧ Text.IsWord "été".toList ∧
      Text.lower "Été".toList = Text.lower "été".toList ∧
      seasonMachine.registry.element? "Été".toList = some ("Été".toList, true) ∧
      seasonMachine.registry.element? "été".toList = some ("été".toList, true) ∧
      (∀ fuel, 3 ≤ fuel → parse fuel "<Été></Été>".toList defaultTitle seasonMachine =
        .ok ⟨[season], []⟩ seasonMachine) ∧
      ∀ fuel document machine, parse fuel "<Été></été>".toList defaultTitle seasonMachine ≠
        .ok document machine := by
  have hname' : Text.IsWord "été".toList := by decide +kernel
  have hsame : spelled "Été".toList "Été".toList = "<Été></Été>".toList := by decide +kernel
  have hother : spelled "Été".toList "été".toList = "<Été></été>".toList := by decide +kernel
  have hdiffer : Text.eqIgnoringCase "Été".toList "été".toList = false := by decide +kernel
  refine ⟨rfl, isWord_season, hname', by decide +kernel, element?_seasonMachine, by decide +kernel,
    ?_, ?_⟩
  · intro fuel hle
    rw [← hsame]
    exact parse_of_eqIgnoringCase forSpellings_seasonMachine isWord_season isWord_season
      element?_seasonMachine defaultTitle (Text.eqIgnoringCase_self _) hle
  · intro fuel document machine h
    obtain ⟨e, -, hfails⟩ := parse_of_not_eqIgnoringCase forSpellings_seasonMachine isWord_season
      hname' element?_seasonMachine defaultTitle hdiffer (Nat.le_max_right fuel 3)
    -- With fuel enough for both, the parse would succeed and fail.
    have hmore := parse_of_le (Nat.le_max_left fuel 3) h
    rw [← hother, hfails] at hmore
    cases hmore

end Engine

end MarkupTemplate
