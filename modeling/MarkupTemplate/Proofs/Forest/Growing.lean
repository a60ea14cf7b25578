import MarkupTemplate.Proofs.Forest.Elements

/-!
# Scanning elements

The scanner reads a row of written tags as `Standing.grow` does. `Stands` is that the open nodes and
the roots of a machine are those of a standing, seen as outlines, and each tag leads from a standing
to the next or fails as the standing does (`exists_readTag`). By induction on the row the scanner
comes to the forest that is grown from it, or fails where that fails (`exists_scan`).
-/

set_option autoImplicit false

namespace MarkupTemplate

/-! ## Documents and machines -/

/-- Whether a tag can be written and, if it opens something, that is an element which takes the
attributes it is given. -/
def TagToken.IsElement (r : Registry) : TagToken → Prop
  | tag name pairs closed => (tag name pairs closed).IsWritten ∧
      ∃ kind container, r.element? name = some (kind, container) ∧
        ∀ pair ∈ pairs, r.Takes kind pair.1
  | closing name => (closing name).IsWritten

/-- Whether a machine is at rest and reads strictly, with the usual markers and with nobody
listening. -/
structure Machine.ForElements (machine : Machine) : Prop where
  strict : machine.parser.settings.strict = true
  markers : machine.parser.settings.markers = {}
  atRest : machine.parser.atRest = machine.parser
  listeners : ∀ phase, machine.parser.listeners phase = []

theorem TagToken.IsElement.isWritten {r : Registry} {t : TagToken} (h : t.IsElement r) :
    t.IsWritten := by
  cases t with
  | tag name pairs closed => exact h.1
  | closing name => exact h

/-- Whether a tag closes an element or has the name of some. -/
def TagToken.isKnown (r : Registry) : TagToken → Bool
  | tag name _ _ => (r.element? name).isSome
  | closing _ => true

/-- Without attributes of the host or of templates the names of tags are all that matters. -/
theorem TagToken.isElement_of_isKnown {r : Registry}
    (hattributes : r.attributes = Registry.standard.attributes) {t : TagToken} (ht : t.IsWritten)
    (hknown : t.isKnown r = true) : t.IsElement r := by
  cases t with
  | closing name => exact ht
  | tag name pairs closed =>
    obtain ⟨⟨kind, container⟩, hname⟩ := Option.isSome_iff_exists.mp hknown
    exact ⟨ht, kind, container, hname, fun pair _ => Registry.takes_of_standard hattributes kind _⟩

/-- The machine in the midst of a document. -/
def Machine.growing (machine : Machine) (r : Reader) (parents roots : List Node)
    (notices : List Notice) : Machine :=
  { machine with notices, parser := { machine.parser with reader := r, parents, roots } }

namespace Machine

variable (machine : Machine) (r : Reader) (parents roots : List Node) (notices : List Notice)

@[simp] theorem growing_parents :
    (machine.growing r parents roots notices).parser.parents = parents := rfl

@[simp] theorem growing_settings :
    (machine.growing r parents roots notices).parser.settings = machine.parser.settings := rfl

theorem ForElements.markers_growing {machine : Machine} (h : machine.ForElements) (r : Reader)
    (parents roots : List Node) (notices : List Notice) :
    (machine.growing r parents roots notices).parser.settings.markers = {} := h.markers

variable {machine} in
theorem growing_of_atRest (h : machine.parser.atRest = machine.parser) :
    machine.growing r [] [] machine.notices = machine.withReader r := by
  have hparser : { machine.parser with reader := r, parents := [], roots := [] } =
      { machine.parser with reader := r } := by
    rw [← h]
    rfl
  rw [growing, withReader, hparser]

end Machine

/-- The node of a tag with the element that it made. -/
def Node.ofTag (name : Text) (pairs : List (Text × Text)) (closed : Bool) (e : Element Node) :
    Node :=
  { tag := TagToken.read name pairs closed, widget := some (.element e) }

theorem Node.outline_ofTag (name : Text) (pairs : List (Text × Text)) (closed : Bool)
    (e : Element Node) : (Node.ofTag name pairs closed e).outline = .mk name pairs closed [] := by
  simp [Node.ofTag, Node.outline, Node.outlines, TagToken.read]

/-- Whether a node, while its tag is open, does what the kind of its elements says. -/
structure Node.IsElement (leaf : Text → Bool) (n : Node) : Prop where
  conduct : n.conduct = .element
  refuses : Engine.refusesChildren n = leaf n.tag.name

theorem Node.IsElement.addChild {leaf : Text → Bool} {n : Node} (h : n.IsElement leaf)
    (child : Node) : (n.addChild child).IsElement leaf := ⟨h.conduct, h.refuses⟩

/-- Whether open nodes and roots are those of a standing. -/
structure Stands (leaf : Text → Bool) (parents roots : List Node) (s : Standing) : Prop where
  parents_eq : Node.outlines parents = s.parents
  roots_eq : Node.outlines roots = s.roots
  elements : ∀ n ∈ parents, n.IsElement leaf

namespace Engine

/-- Whether a run comes to the standing that is expected, or fails as is expected. -/
inductive Reaches (machine : Machine) (leaf : Text → Bool) (r : Reader) :
    Except Fault Standing → EStateM.Result Stop Machine Unit → Prop
  | ok {parents roots : List Node} {notices : List Notice} {s : Standing}
      (h : Stands leaf parents roots s) :
      Reaches machine leaf r (.ok s) (.ok () (machine.growing r parents roots notices))
  | error {parents roots : List Node} {notices : List Notice} {e : Error} {f : Fault}
      (h : e.fault = f) : Reaches machine leaf r (.error f)
        (.error (.failure e) (machine.growing r parents roots notices))

/-- Whether a run comes to the end of the document and has the forest that is expected, or fails as
is expected. -/
inductive Ends (machine : Machine) :
    Except Fault (List Outline) → EStateM.Result Stop Machine Unit → Prop
  | ok {r : Reader} {roots : List Node} {notices : List Notice} :
      Ends machine (.ok (Node.outlines roots)) (.ok () (machine.growing r [] roots notices))
  | error {r : Reader} {parents roots : List Node} {notices : List Notice} {e : Error} {f : Fault}
      (h : e.fault = f) :
      Ends machine (.error f) (.error (.failure e) (machine.growing r parents roots notices))

variable {machine : Machine} {leaf : Text → Bool} {r : Reader} {parents roots : List Node}
  {notices : List Notice} {s : Standing}

/-- What comes behind a standing comes to the end if it does so from where the standing is
reached. -/
theorem Reaches.bind {expected : Except Fault Standing}
    {following : Standing → Except Fault (List Outline)} {x : Engine Unit}
    {f : Unit → Engine Unit} {machine' : Machine} (h : Reaches machine leaf r expected (x machine'))
    (hfollowing : ∀ s parents roots notices, Stands leaf parents roots s →
      Ends machine (following s) (f () (machine.growing r parents roots notices))) :
    Ends machine (expected >>= following) ((x >>= f) machine') := by
  generalize hx : x machine' = result at h
  cases h with
  | ok hs =>
    rw [bind_of_ok hx]
    exact hfollowing _ _ _ _ hs
  | error he =>
    rw [bind_of_error hx]
    exact .error he

/-! ## Turns

The scanner takes a row of written tags one at a time, with no text in between. -/

theorem exists_turn (hmarkers : machine.parser.settings.markers = {}) {t : TagToken}
    (ht : t.IsWritten) {rest : Text} (hunread : machine.parser.reader.unread = t.text ++ rest) :
    ∃ r, r.unread = rest ∧
      ∀ fuel, turn fuel [] machine = .ok (.tag t.raw) (machine.withReader r) := by
  rw [TagToken.text, List.cons_append, List.append_assoc, List.singleton_append] at hunread
  refine exists_turn_of_chars ?_ ?_ ?_ fun nested => ?_
  · rw [hmarkers]
    decide
  · rw [hmarkers]
    exact hunread
  · rw [hmarkers]
    exact head?_raw_ne ht _
  · rw [hmarkers]
    exact tagParts_raw ht nested rest

theorem turn_end (fuel : Nat) (hunread : r.unread = []) :
    turn fuel [] (machine.growing r parents roots notices) =
      (checkClosed >>= fun _ => pure .finished)
        (machine.growing r.next.2 parents roots notices) := by
  have hend : (machine.growing r parents roots notices).parser.reader.unread = [] := hunread
  rw [turn, bind_of_ok (markers_eq _), bind_of_ok (next_end hend)]
  dsimp only
  rw [List.reverse_nil, bind_of_ok (addText_nil _)]
  rfl

/-! ## Nodes in their places

What the tree does with a complete node, and what `Standing` does with its outline. Both refuse a
child of a leaf at the same moment, when the child is complete. -/

/-- A complete node gets the place that its outline gets. -/
theorem attach_reaches (hstrict : machine.parser.settings.strict = true)
    (h : Stands leaf parents roots s) (n : Node) : Reaches machine leaf r (s.place leaf n.outline)
      (attach n (machine.growing r parents roots notices)) := by
  obtain ⟨openOutlines, rootOutlines⟩ := s
  obtain ⟨rfl, rfl, helements⟩ := h
  -- Without a node around it the new one is a root; else it may be refused as a child.
  cases parents with
  | nil =>
    refine .ok ⟨rfl, ?_, helements⟩
    rw [Node.outlines_append]
    rfl
  | cons parent outer =>
    obtain ⟨hparent, houter⟩ := List.forall_mem_cons.mp helements
    rw [attach, bind_of_ok (parser_eq _), Machine.growing_parents]
    dsimp only
    rw [hparent.refuses, Node.outlines, Standing.place, Node.name_outline]
    by_cases hleaf : leaf parent.tag.name = true
    · have hstrict' : (machine.growing r (parent :: outer) roots notices).parser.settings.strict =
          true := hstrict
      have hfail := failIfStrict_eq hstrict' (.notAParent parent.tag.name)
      rw [if_pos hleaf, if_pos hleaf, bind_of_error hfail]
      exact .error rfl
    · rw [if_neg hleaf, if_neg hleaf]
      refine .ok ⟨?_, rfl, List.forall_mem_cons.mpr ⟨hparent.addChild n, houter⟩⟩
      rw [Node.outlines, Node.outline_addChild]

/-- A closing tag does to the nodes what it does to the outlines. -/
theorem closeParent_reaches (hstrict : machine.parser.settings.strict = true)
    (h : Stands leaf parents roots s) (name : Text) :
    Reaches machine leaf r (s.step leaf (.closing name))
      (closeParent name (machine.growing r parents roots notices)) := by
  obtain ⟨openOutlines, rootOutlines⟩ := s
  obtain ⟨hparents, hroots, helements⟩ := h
  rw [closeParent, bind_of_ok (parser_eq _), Machine.growing_parents]
  cases parents with
  | nil =>
    obtain rfl : [] = openOutlines := hparents
    exact .error rfl
  | cons parent outer =>
    obtain rfl : parent.outline :: Node.outlines outer = openOutlines := hparents
    obtain ⟨hparent, houter⟩ := List.forall_mem_cons.mp helements
    dsimp only
    rw [bind_of_ok (isStrict_eq _), Machine.growing_settings, hstrict, Standing.step,
      Node.name_outline]
    by_cases hname : parent.tag.name = name
    · have hcloses : closes true parent.tag.name name = true := by simp [closes, hname]
      have hfinish : ∀ machine, Engine.finish parent machine = .ok () machine := by
        intro machine
        rw [Engine.finish, hparent.conduct]
        rfl
      have hbelow : Stands leaf outer roots ⟨Node.outlines outer, rootOutlines⟩ :=
        ⟨rfl, hroots, houter⟩
      rw [if_pos hname, if_pos hcloses, bind_of_ok (modifyParser_eq _ _), bind_of_ok (hfinish _)]
      exact attach_reaches hstrict hbelow parent
    · have hcloses : closes true parent.tag.name name ≠ true := by simp [closes, hname]
      rw [if_neg hname, if_neg hcloses]
      exact .error rfl

/-- With enough fuel the node of an element is opened and, if its tag closed itself, gets its
place. -/
theorem exists_openNode (hstrict : machine.parser.settings.strict = true) {name kind : Text}
    {container : Bool} {pairs : List (Text × Text)}
    (hname : machine.registry.element? name = some (kind, container))
    (hpairs : ∀ pair ∈ pairs, machine.registry.Takes kind pair.1) (closed : Bool) :
    ∃ enough, ∀ fuel, enough ≤ fuel → ∀ r parents roots notices s,
      Stands machine.registry.isLeaf parents roots s →
      Reaches machine machine.registry.isLeaf r
        (s.step machine.registry.isLeaf (.tag name pairs closed))
        (openNode fuel (.ofTag name pairs closed { kind, container })
          (machine.growing r parents roots notices)) := by
  obtain ⟨enough, hshape⟩ := Shaping.exists_shape hpairs
  refine ⟨enough, fun fuel hfuel r parents roots notices s h => ?_⟩
  obtain ⟨e, noted, hcontainer, hrun⟩ := hshape fuel hfuel (machine.growing r parents roots notices)
    (.ofTag name pairs closed { kind, container }) { kind, container } rfl rfl rfl rfl
  have hshaped : Shaping.shape (Shaping.applyTag fuel)
      (.ofTag name pairs closed { kind, container }) (machine.growing r parents roots notices) =
        .ok (.ofTag name pairs closed e) (machine.growing r parents roots noted) := hrun
  rw [openNode, bind_of_ok hshaped]
  cases closed with
  | true =>
    rw [Standing.step, ← Node.outline_ofTag name pairs true e]
    exact attach_reaches hstrict h _
  | false =>
    -- Only now that the tag stays open does it matter whether the element is a leaf.
    have hopen : (Node.ofTag name pairs false e).IsElement machine.registry.isLeaf := by
      refine ⟨rfl, ?_⟩
      show (!e.container) = machine.registry.isLeaf name
      rw [Registry.isLeaf, hname, hcontainer]
      rfl
    refine .ok ⟨?_, h.roots_eq, List.forall_mem_cons.mpr ⟨hopen, h.elements⟩⟩
    rw [← Node.outline_ofTag name pairs false e, ← h.parents_eq]
    rfl

theorem readTag_closing (hmarkers : machine.parser.settings.markers = {}) {name : Text}
    (hwritten : (TagToken.closing name).IsWritten) (fuel : Nat)
    (fragment : Text → Text → Engine Document) :
    readTag fuel fragment (TagToken.closing name).raw machine = closeParent name machine := by
  rw [readTag_eq, bind_of_ok (markers_eq _), hmarkers, tagText_closing hwritten, takeTag]

/-- A tag with the name of elements is taken in as the node of one. -/
theorem readTag_tag (hmarkers : machine.parser.settings.markers = {}) {name kind : Text}
    {container closed : Bool} {pairs : List (Text × Text)}
    (hwritten : (TagToken.tag name pairs closed).IsWritten)
    (hname : machine.registry.element? name = some (kind, container)) (fuel : Nat)
    (fragment : Text → Text → Engine Document) :
    readTag fuel fragment (TagToken.tag name pairs closed).raw machine =
      openNode fuel (.ofTag name pairs closed { kind, container }) machine := by
  obtain ⟨own, hmaker, rfl⟩ := Registry.tagMaker?_of_element? hname
  have hparse : (ofOutcome (Tag.parse {} (TagToken.tag name pairs closed).raw) : Engine Tag)
      machine = .ok (TagToken.read name pairs closed) machine :=
    ofOutcome_eq_ok_iff.mpr ⟨parse_raw hwritten, rfl⟩
  have hregular : readRegular fuel (TagToken.tag name pairs closed).raw machine =
      runTag fuel (TagToken.read name pairs closed) (machine.registry.tagMaker? name) machine := by
    rw [readRegular_eq, bind_of_ok (markers_eq _), hmarkers, bind_of_ok hparse]
    rfl
  rw [readTag_eq, bind_of_ok (markers_eq _), hmarkers, tagText_raw hwritten.1, takeTag, hregular,
    hmaker]
  rfl

theorem exists_readTag (hmachine : machine.ForElements) {t : TagToken}
    (ht : t.IsElement machine.registry) : ∃ enough, ∀ fuel, enough ≤ fuel →
      ∀ fragment r parents roots notices s, Stands machine.registry.isLeaf parents roots s →
      Reaches machine machine.registry.isLeaf r (s.step machine.registry.isLeaf t)
        (readTag fuel fragment t.raw (machine.growing r parents roots notices)) := by
  cases t with
  | closing name =>
    refine ⟨0, fun fuel _ fragment r parents roots notices s h => ?_⟩
    rw [readTag_closing (hmachine.markers_growing r parents roots notices) ht]
    exact closeParent_reaches hmachine.strict h name
  | tag name pairs closed =>
    obtain ⟨hwritten, kind, container, hname, hpairs⟩ := ht
    obtain ⟨enough, hopen⟩ := exists_openNode hmachine.strict hname hpairs closed
    refine ⟨enough, fun fuel hfuel fragment r parents roots notices s h => ?_⟩
    rw [readTag_tag (hmachine.markers_growing r parents roots notices) hwritten hname]
    exact hopen fuel hfuel r parents roots notices s h

/-! ## Documents -/

/-- Where nothing is left to read and nothing is open, scanning is finished. -/
theorem scan_growing_end (notices : List Notice) (hunread : r.unread = []) (fuel : Nat) :
    scan (fuel + 1) [] (machine.growing r [] roots notices) =
      .ok () (machine.growing r.next.2 [] roots notices) := by
  have hturn : turn fuel [] (machine.growing r [] roots notices) =
      .ok .finished (machine.growing r.next.2 [] roots notices) := turn_end fuel hunread
  rw [scan_succ, bind_of_ok hturn]
  rfl

/-- At the end of the row there is a forest, unless an element is open. -/
theorem scan_end_ends (fuel : Nat) (hunread : r.unread = []) (h : Stands leaf parents roots s) :
    Ends machine s.finish (scan (fuel + 1) [] (machine.growing r parents roots notices)) := by
  obtain ⟨openOutlines, rootOutlines⟩ := s
  obtain ⟨hparents, hroots, _⟩ := h
  cases parents with
  | nil =>
    obtain rfl : [] = openOutlines := hparents
    obtain rfl : _ = rootOutlines := hroots
    rw [scan_growing_end notices hunread fuel]
    exact .ok
  | cons parent outer =>
    obtain rfl : parent.outline :: Node.outlines outer = openOutlines := hparents
    have hturn : turn fuel [] (machine.growing r (parent :: outer) roots notices) =
        .error (.failure { fault := .unclosedTag parent.tag.name })
          (machine.growing r.next.2 (parent :: outer) roots notices) := turn_end fuel hunread
    rw [scan_succ, bind_of_error hturn, Standing.finish, Node.name_outline]
    exact .error rfl

/-- With enough fuel a row of tags is read to its end. -/
theorem exists_scan (hmachine : machine.ForElements) {tokens : List TagToken}
    (htokens : ∀ t ∈ tokens, t.IsElement machine.registry) : ∃ enough, ∀ fuel, enough ≤ fuel →
      ∀ r parents roots notices s, r.unread = tokens.flatMap TagToken.text →
      Stands machine.registry.isLeaf parents roots s →
      Ends machine (s.run machine.registry.isLeaf tokens >>= Standing.finish)
        (scan fuel [] (machine.growing r parents roots notices)) := by
  induction tokens with
  | nil =>
    refine ⟨1, fun fuel hfuel r parents roots notices s hunread h => ?_⟩
    obtain ⟨less, rfl⟩ := Nat.exists_eq_add_of_le' hfuel
    exact scan_end_ends less hunread h
  | cons t tokens ih =>
    obtain ⟨ht, hrest⟩ := List.forall_mem_cons.mp htokens
    obtain ⟨enough, hread⟩ := exists_readTag hmachine ht
    obtain ⟨more, hscan⟩ := ih hrest
    -- The first turn takes one of the fuel, and hands the rest both to the tag and to what follows.
    refine ⟨max enough more + 1, fun fuel hfuel r parents roots notices s hunread h => ?_⟩
    obtain ⟨less, rfl⟩ := Nat.exists_eq_add_of_le' (Nat.le_trans (Nat.le_add_left 1 _) hfuel)
    have henough : enough ≤ less := by omega
    have hmore : more ≤ less := by omega
    obtain ⟨r', hr', hturn⟩ :=
      exists_turn (hmachine.markers_growing r parents roots notices) ht.isWritten hunread
    have htag := hread less henough (apart (scan less [])) r' parents roots notices s h
    rw [scan_succ, bind_of_ok (hturn less), Standing.run, bind_assoc]
    exact htag.bind fun s parents roots notices hs =>
      hscan less hmore r' parents roots notices s hr' hs

end Engine

end MarkupTemplate
