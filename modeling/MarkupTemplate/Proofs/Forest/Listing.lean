import MarkupTemplate.Proofs.Engine.Hosts

/-!
# The listing of tags

The finished roots and then, from the outside to the inside, the open tags with the children they
have so far make up a row of tags, the `listing` of a machine. Most of what reading does leaves it
alone (`SameListing`). A tag that is opened comes to its end, whether it stays open or not. One that
is closed only changes its place in the tree: it was the last open tag with all that is below it,
and becomes the last child of the tag around it, or the last root. So a tag adds to the listing what
it opens (`listing_of_readTag`).
-/

set_option autoImplicit false

namespace MarkupTemplate

/-! ## The tags of nodes -/

namespace Node

/-- The tags of some nodes and of all nodes below them, in the order in which they were opened. -/
def tags (nodes : List Node) : List Tag := (preorderAll nodes).map Node.tag

@[simp] theorem tags_nil : tags [] = [] := rfl

/-- The tags of a row of nodes: the first one, those below it and those of the others. -/
theorem tags_cons (n : Node) (nodes : List Node) :
    tags (n :: nodes) = n.tag :: (tags n.children ++ tags nodes) := by
  obtain ⟨tag, conduct, widget, children⟩ := n
  simp [tags, preorderAll, preorder]

theorem tags_append (nodes nodes' : List Node) :
    tags (nodes ++ nodes') = tags nodes ++ tags nodes' := by
  induction nodes with
  | nil => rfl
  | cons n nodes ih => rw [List.cons_append, tags_cons, tags_cons, ih]; simp

/-- A node without children has no tag but its own. -/
theorem tags_singleton {n : Node} (h : n.children = []) : tags [n] = [n.tag] := by
  rw [tags_cons, h]
  rfl

/-- The tags of a child come behind all others below its parent. -/
theorem tags_addChild (n child : Node) : tags [n.addChild child] = tags [n] ++ tags [child] := by
  rw [tags_cons, tags_cons n]
  simp [addChild, tags_append]

theorem tags_withWidget (n : Node) (w : Option (Widget Node)) :
    tags [n.withWidget w] = tags [n] := by
  rw [tags_cons, tags_cons]
  rfl

/-! ### Changed nodes -/

mutual

/-- A change that keeps the tags of each node keeps those of the tree it is made in. -/
theorem tags_update? {id : Text} {f : Node → Node} (hf : ∀ n, tags [f n] = tags [n]) :
    (n : Node) → {n' : Node} → update? id f n = some n' → tags [n'] = tags [n]
  | ⟨tag, conduct, widget, children⟩, n', h => by
    rw [update?] at h
    split at h
    · obtain rfl := Option.some.inj h
      exact hf _
    · obtain ⟨children', hchildren, rfl⟩ := Option.map_eq_some_iff.mp h
      rw [tags_cons, tags_cons, tags_updateAll? hf children hchildren]
termination_by structural n => n

theorem tags_updateAll? {id : Text} {f : Node → Node} (hf : ∀ n, tags [f n] = tags [n]) :
    (nodes : List Node) → {nodes' : List Node} → updateAll? id f nodes = some nodes' →
      tags nodes' = tags nodes
  | [], _, h => by cases h
  | n :: nodes, nodes', h => by
    rw [updateAll?] at h
    cases hn : update? id f n with
    | some n' =>
      rw [hn] at h
      obtain rfl := Option.some.inj h
      have hhead := tags_update? hf n hn
      rw [← List.singleton_append, tags_append, hhead, ← tags_append]
      rfl
    | none =>
      rw [hn] at h
      obtain ⟨rest, hrest, rfl⟩ := Option.map_eq_some_iff.mp h
      rw [tags_cons, tags_cons, tags_updateAll? hf nodes hrest]
termination_by structural nodes => nodes

end

/-- Changing the node with an id, if there is one, keeps the tags. -/
theorem tags_update {id : Text} {f : Node → Node} (hf : ∀ n, tags [f n] = tags [n])
    (nodes : List Node) : tags (update id f nodes) = tags nodes := by
  unfold update
  cases h : updateAll? id f nodes with
  | none => rfl
  | some nodes' => exact tags_updateAll? hf nodes h

end Node

/-- The tags of the finished roots and then, from the outside to the inside, of each open tag with
its children so far. -/
def Machine.listing (machine : Machine) : List Tag :=
  Node.tags (machine.parser.roots ++ machine.parser.parents.reverse)

theorem Machine.listing_cons {machine : Machine} {n : Node} {outer : List Node}
    (h : machine.parser.parents = n :: outer) :
    machine.listing = ({ machine with
      parser := { machine.parser with parents := outer } } : Machine).listing ++ Node.tags [n] := by
  unfold listing
  rw [h, List.reverse_cons, ← List.append_assoc, Node.tags_append]

/-- Whether two machines have the same listing. -/
def SameListing (m m' : Machine) : Prop := m'.listing = m.listing

instance : ReadingFrame SameListing where
  refl _ := rfl
  trans h h' := h'.trans h
  notices _ _ := rfl
  registry _ _ := rfl
  reader _ _ := rfl
  environment _ _ := rfl
  draws _ _ := rfl
  text _ _ := rfl
  widget w h := by
    rw [SameListing, Machine.listing_cons h, Machine.listing_cons rfl, Node.tags_withWidget]
  deferred _ _ _ _ := rfl

instance : ListeningFrame SameListing where
  environment _ _ := rfl
  listeners _ _ _ := rfl

instance {σ : Type} : Frame (@Eq σ) where
  refl _ := rfl
  trans h h' := h.trans h'

namespace Engine

variable {fuel : Nat} {machine machine' : Machine}

/-! ## The listing and the tree

The three ways in which the tree changes: a node is attached, opened or closed. Of these only
closing leaves the listing as it is. -/

/-- What is read apart leaves the listing alone, since the tree is put back in place. -/
theorem sameListing_apart (read : Engine Unit) (text name : Text) :
    Within SameListing (apart read text name) := by
  intro machine
  have hsame := sameTree_apart read text name machine
  unfold WithinAt SameListing Machine.listing
  rw [hsame.parents, hsame.roots]

/-- A finished node comes to the end of the listing. -/
theorem listing_of_attach {n : Node} (h : attach n machine = .ok () machine') :
    machine'.listing = machine.listing ++ Node.tags [n] := by
  unfold attach at h
  rw [bind_of_ok (parser_eq machine)] at h
  cases hparents : machine.parser.parents with
  | nil =>
    rw [hparents] at h
    obtain ⟨_, rfl⟩ := EStateM.Result.ok.inj h
    unfold Machine.listing
    dsimp only
    rw [hparents, List.reverse_nil, List.append_nil, List.append_nil, Node.tags_append]
  | cons parent outer =>
    rw [hparents] at h
    -- Where a leaf should refuse the child, and reading goes on, it takes the child all the same.
    have hattached : machine' = { machine with
        parser := { machine.parser with parents := parent.addChild n :: outer } } := by
      dsimp only at h
      split at h
      · obtain ⟨_, machine₁, hfail, h⟩ := bind_eq_ok_iff.mp h
        obtain rfl := (within_failIfStrict (R := Eq) _).of_ok hfail
        exact ((EStateM.Result.ok.inj h).2).symm
      · exact ((EStateM.Result.ok.inj h).2).symm
    rw [hattached, Machine.listing_cons rfl, Machine.listing_cons hparents, Node.tags_addChild,
      List.append_assoc]

/-- A node that is opened comes to the end of the listing, whether it stays open or not. -/
theorem listing_of_openNode {n : Node} (hn : n.children = [])
    (h : openNode fuel n machine = .ok () machine') :
    machine'.listing = machine.listing ++ [n.tag] := by
  unfold openNode at h
  obtain ⟨shaped, machine₁, hshape, h⟩ := bind_eq_ok_iff.mp h
  have hsame : SameListing machine machine₁ := (within_shape n).of_ok hshape
  obtain ⟨w, rfl⟩ := exists_widget_of_shape hshape
  have htags : Node.tags [n.withWidget w] = [n.tag] := by
    rw [Node.tags_withWidget, Node.tags_singleton hn]
  -- A tag that is left open joins the open ones, and any other goes to the one around it.
  split at h
  · obtain ⟨_, rfl⟩ := EStateM.Result.ok.inj h
    rw [Machine.listing_cons rfl, htags]
    exact congrArg (· ++ [n.tag]) hsame
  · obtain ⟨_, machine₂, hfinish, h⟩ := bind_eq_ok_iff.mp h
    have hsame' : SameListing machine₁ machine₂ := (within_finish _).of_ok hfinish
    rw [listing_of_attach h, htags, hsame'.trans hsame]

/-- A tag that is closed changes its place in the tree, but not in the listing. -/
theorem sameListing_closeParent {name : Text} (h : closeParent name machine = .ok () machine') :
    SameListing machine machine' := by
  unfold closeParent at h
  rw [bind_of_ok (parser_eq machine)] at h
  cases hparents : machine.parser.parents with
  | nil =>
    rw [hparents] at h
    exact absurd h throw_ne_ok
  | cons parent outer =>
    rw [hparents] at h
    dsimp only at h
    rw [bind_of_ok (isStrict_eq machine)] at h
    split at h
    · rw [bind_of_ok (modifyParser_eq _ machine)] at h
      -- The node leaves the open ones and is attached, so its tags are listed where they were.
      obtain ⟨_, machine₁, hfinish, h⟩ := bind_eq_ok_iff.mp h
      have hsame : SameListing _ machine₁ := (within_finish parent).of_ok hfinish
      rw [SameListing, listing_of_attach h, Machine.listing_cons hparents, hsame]
    · exact absurd h throw_ne_ok

/-! ## The tag that is opened

What a tag opens can be told from its text and from what is registered, before it is read. -/

/-- The tag that is opened for a tag as it was read, by what is registered for it: none if that is
a template, and a tag of the host may take no children whatever was read. -/
def openedAs? (t : Tag) : Option (Provider TagMaker) → Option Tag
  | some (.native (.element ..)) => some t
  | some (.native (.host h)) => some (t.withParental (!h.isVoid))
  | some (.template _) => none
  | none => some t

/-- The tag that the text between tag markers opens. -/
def opened? (machine : Machine) (raw : Text) : Option Tag :=
  match machine.parser.settings.markers.tagText raw with
  | .regular s =>
    match Tag.parse machine.parser.settings.markers s with
    | .ok t => openedAs? t (machine.registry.tagMaker? t.name)
    | .error _ => none
  | _ => none

/-- A node that was just made has no children, and the tag that was to be opened. -/
theorem of_makeNode {maker : TagMaker} {t : Tag} {n : Node}
    (h : makeNode maker t machine = .ok n machine') :
    n.children = [] ∧ openedAs? t (some (.native maker)) = some n.tag := by
  cases maker with
  | element kind container =>
    obtain ⟨rfl, _⟩ := EStateM.Result.ok.inj h
    exact ⟨rfl, rfl⟩
  | host host =>
    obtain ⟨refusal, isVoid, widget, likeElement, failure, appended⟩ := host
    cases refusal with
    | some message => exact absurd h throw_ne_ok
    | none =>
      cases likeElement with
      | true =>
        obtain ⟨rfl, _⟩ := EStateM.Result.ok.inj h
        exact ⟨rfl, rfl⟩
      | false =>
        obtain ⟨rfl, _⟩ := EStateM.Result.ok.inj h
        exact ⟨rfl, rfl⟩

/-- Running what is registered for a tag adds what the tag opens. -/
theorem listing_of_runTag {t : Tag} {provider : Option (Provider TagMaker)}
    (h : runTag fuel t provider machine = .ok () machine') :
    machine'.listing = machine.listing ++ (openedAs? t provider).toList := by
  unfold runTag at h
  split at h
  · next maker =>
    obtain ⟨n, machine₁, hmake, h⟩ := bind_eq_ok_iff.mp h
    obtain ⟨hchildren, hopened⟩ := of_makeNode hmake
    have hsame : SameListing machine machine₁ := (within_makeNode maker t).of_ok hmake
    rw [listing_of_openNode hchildren h, hopened, hsame]
    rfl
  · next d =>
    -- A template opens nothing by itself; its tags are opened when its text is read.
    have hwithin : Within SameListing (withBody t false >>= appendTemplate d) :=
      (within_withBody t false).bind fun _ => within_appendTemplate _ _
    rw [hwithin.of_ok h]
    exact (List.append_nil _).symm
  · obtain ⟨_, machine₁, hfail, h⟩ := bind_eq_ok_iff.mp h
    have hsame : SameListing machine machine₁ := (within_failIfStrict _).of_ok hfail
    rw [listing_of_openNode rfl h, hsame]
    rfl

/-- **A tag adds what it opens to the listing.** Whatever else reading it does, the fragments that
macros read apart, the listeners that the host runs, leaves the listing alone (`ReadingFrame`,
`ListeningFrame`). -/
theorem listing_of_readTag {raw : Text}
    (h : readTag fuel (apart (scan fuel [])) raw machine = .ok () machine') :
    machine'.listing = machine.listing ++ (opened? machine raw).toList := by
  rw [readTag_eq, bind_of_ok (markers_eq machine)] at h
  unfold opened?
  -- Only a regular tag opens anything.
  cases htext : machine.parser.settings.markers.tagText raw with
  | blank =>
    rw [htext] at h
    exact absurd h throw_ne_ok
  | closing name =>
    rw [htext] at h
    rw [sameListing_closeParent h]
    exact (List.append_nil _).symm
  | macroTag s =>
    rw [htext] at h
    have hwithin : Within SameListing (readMacro fuel (apart (scan fuel [])) s) :=
      within_readMacro (sameListing_apart _) s
    rw [hwithin.of_ok h]
    exact (List.append_nil _).symm
  | regular s =>
    rw [htext] at h
    have hregular : readRegular fuel s machine = .ok () machine' := h
    rw [readRegular_eq, bind_of_ok (markers_eq machine)] at hregular
    obtain ⟨t, machine₁, houtcome, hrun⟩ := bind_eq_ok_iff.mp hregular
    obtain ⟨hparse, rfl⟩ := ofOutcome_eq_ok_iff.mp houtcome
    dsimp only
    rw [hparse]
    exact listing_of_runTag hrun

end Engine

end MarkupTemplate
