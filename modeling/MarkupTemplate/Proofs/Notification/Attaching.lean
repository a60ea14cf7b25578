import MarkupTemplate.Engine.Notification
import Mathlib.Logic.Basic

/-!
# Attaching hooks

A macro that hangs a hook on nodes by their names leaves that to a listener behind the parse. For
each name the listener looks for the first node, in the order of the opening tags, and stops there.
So what becomes of a widget depends on the names in front of it. `Node.mapWidgetsAll` changes the
widgets of a forest by what is in front of them, and the listener is one such change
(`notifyOne_attach`): a widget gets the hook if it takes hooks, its name is wanted, and no node in
front of it has the same name.

Where no wanted name is given twice, that is every widget of a wanted name. Otherwise it is not: the
second of two widgets of one name goes without the hook (`not_attachHook_every`).

The listener makes one search for each name, and each search is over what the one before it has
left. That these can be made in one walk over the forest is what `mapWidgetsAll_mapWidgetsAll` is
for: hooks change no names, so what is in front of a widget is the same before and after.
-/

set_option autoImplicit false

namespace MarkupTemplate

namespace Node

/-- The names of some nodes and of all nodes below them, in the order of their opening tags. -/
def ids (nodes : List Node) : List Text := (preorderAll nodes).filterMap id

@[simp] theorem ids_nil : ids [] = [] := rfl

theorem ids_cons (n : Node) (nodes : List Node) : ids (n :: nodes) = ids [n] ++ ids nodes := by
  simp [ids, preorderAll]

theorem ids_singleton (n : Node) : ids [n] = n.id.toList ++ ids n.children := by
  obtain ⟨tag, conduct, widget, children⟩ := n
  simp only [ids, preorderAll, preorder, List.append_nil, List.filterMap_cons]
  cases id ⟨tag, conduct, widget, children⟩ <;> rfl

/-! ## Changed widgets

Four facts about changing widgets by what is in front of them: names stay if each change keeps them,
two changes are one, only what is really in front matters, and changing nothing does nothing. Each
is an induction on nodes and lists of nodes at once, like the definition. -/

mutual

/-- A node with its widget and those below it changed. A widget is changed by the names in front of
it: the earlier ones, and those of the nodes around it and before it. -/
def mapWidgets (g : List Text → Widget Node → Widget Node) (earlier : List Text) : Node → Node
  | ⟨tag, conduct, widget, children⟩ =>
    ⟨tag, conduct, widget.map (g earlier),
      mapWidgetsAll g (earlier ++ (widget.bind Widget.id).toList) children⟩
termination_by structural n => n

/-- Some nodes with their widgets and those below them changed. -/
def mapWidgetsAll (g : List Text → Widget Node → Widget Node) (earlier : List Text) :
    List Node → List Node
  | [] => []
  | n :: nodes => mapWidgets g earlier n :: mapWidgetsAll g (earlier ++ ids [n]) nodes
termination_by structural nodes => nodes

end

variable {g g' : List Text → Widget Node → Widget Node}

theorem map_tag_mapWidgetsAll (earlier : List Text) (nodes : List Node) :
    (mapWidgetsAll g earlier nodes).map Node.tag = nodes.map Node.tag := by
  induction nodes generalizing earlier with
  | nil => rfl
  | cons n nodes ih =>
    obtain ⟨tag, conduct, widget, children⟩ := n
    rw [mapWidgetsAll, List.map_cons, List.map_cons, ih]
    rfl

mutual

/-- The names of a forest stay if no change touches a name. -/
theorem ids_mapWidgets (hg : ∀ earlier w, (g earlier w).id = w.id) (earlier : List Text) :
    (n : Node) → ids [mapWidgets g earlier n] = ids [n]
  | ⟨tag, conduct, widget, children⟩ => by
    have hid : (widget.map (g earlier)).bind Widget.id = widget.bind Widget.id := by
      cases widget with
      | none => rfl
      | some w => exact hg earlier w
    rw [mapWidgets, ids_singleton, ids_singleton]
    show (Option.bind _ _).toList ++ _ = (Option.bind _ _).toList ++ _
    rw [hid, ids_mapWidgetsAll hg _ children]
termination_by structural n => n

theorem ids_mapWidgetsAll (hg : ∀ earlier w, (g earlier w).id = w.id) (earlier : List Text) :
    (nodes : List Node) → ids (mapWidgetsAll g earlier nodes) = ids nodes
  | [] => rfl
  | n :: nodes => by
    rw [mapWidgetsAll, ids_cons, ids_mapWidgets hg earlier n, ids_mapWidgetsAll hg _ nodes,
      ← ids_cons]
termination_by structural nodes => nodes

end

mutual

/-- Changes that keep the names can be made together. -/
theorem mapWidgets_mapWidgets (hg : ∀ earlier w, (g earlier w).id = w.id) (earlier : List Text) :
    (n : Node) → mapWidgets g' earlier (mapWidgets g earlier n) =
      mapWidgets (fun earlier w => g' earlier (g earlier w)) earlier n
  | ⟨tag, conduct, widget, children⟩ => by
    have hid : (widget.map (g earlier)).bind Widget.id = widget.bind Widget.id := by
      cases widget with
      | none => rfl
      | some w => exact hg earlier w
    rw [mapWidgets, mapWidgets, mapWidgets, hid, mapWidgetsAll_mapWidgetsAll hg _ children,
      Option.map_map]
    rfl
termination_by structural n => n

theorem mapWidgetsAll_mapWidgetsAll (hg : ∀ earlier w, (g earlier w).id = w.id)
    (earlier : List Text) :
    (nodes : List Node) → mapWidgetsAll g' earlier (mapWidgetsAll g earlier nodes) =
      mapWidgetsAll (fun earlier w => g' earlier (g earlier w)) earlier nodes
  | [] => rfl
  | n :: nodes => by
    rw [mapWidgetsAll, mapWidgetsAll, mapWidgetsAll, ids_mapWidgets hg,
      mapWidgets_mapWidgets hg earlier n, mapWidgetsAll_mapWidgetsAll hg _ nodes]
termination_by structural nodes => nodes

end

mutual

/-- Only the names that are really in front of a widget matter for what becomes of it. -/
theorem mapWidgets_congr (earlier : List Text) : (n : Node) →
    (∀ before w behind, ids [n] = before ++ w.id.toList ++ behind →
      g (earlier ++ before) w = g' (earlier ++ before) w) →
    mapWidgets g earlier n = mapWidgets g' earlier n
  | ⟨tag, conduct, widget, children⟩, h => by
    have hids := ids_singleton ⟨tag, conduct, widget, children⟩
    have hwidget : widget.map (g earlier) = widget.map (g' earlier) := by
      cases widget with
      | none => rfl
      | some w => simpa using h [] w (ids children) hids
    have hchildren := mapWidgetsAll_congr (earlier ++ (widget.bind Widget.id).toList) children
      fun before w behind hsplit => by
        rw [List.append_assoc]
        refine h _ w behind ?_
        rw [hids]
        exact (congrArg _ hsplit).trans (by simp [Node.id])
    rw [mapWidgets, mapWidgets, hwidget, hchildren]
termination_by structural n => n

theorem mapWidgetsAll_congr (earlier : List Text) : (nodes : List Node) →
    (∀ before w behind, ids nodes = before ++ w.id.toList ++ behind →
      g (earlier ++ before) w = g' (earlier ++ before) w) →
    mapWidgetsAll g earlier nodes = mapWidgetsAll g' earlier nodes
  | [], _ => rfl
  | n :: nodes, h => by
    have hhead := mapWidgets_congr earlier n fun before w behind hsplit =>
      h before w (behind ++ ids nodes) (by rw [ids_cons, hsplit]; simp)
    have htail := mapWidgetsAll_congr (earlier ++ ids [n]) nodes
      fun before w behind hsplit => by
        rw [List.append_assoc]
        exact h _ w behind (by rw [ids_cons, hsplit]; simp)
    rw [mapWidgetsAll, mapWidgetsAll, hhead, htail]
termination_by structural nodes => nodes

end

mutual

theorem mapWidgets_same (earlier : List Text) :
    (n : Node) → mapWidgets (fun _ w => w) earlier n = n
  | ⟨tag, conduct, widget, children⟩ => by
    rw [mapWidgets, mapWidgetsAll_same _ children, Option.map_id']
termination_by structural n => n

theorem mapWidgetsAll_same (earlier : List Text) :
    (nodes : List Node) → mapWidgetsAll (fun _ w => w) earlier nodes = nodes
  | [] => rfl
  | n :: nodes => by rw [mapWidgetsAll, mapWidgets_same earlier n, mapWidgetsAll_same _ nodes]
termination_by structural nodes => nodes

end

/-! ## The first node of a name

The search for a name is the change `hookFirst` for that one name, and the search for several is the
change for all of them. -/

/-- The widget with one more hook if it takes hooks. -/
def hooked (hook : Hook Node) (w : Widget Node) : Widget Node := (w.addHook? hook).getD w

/-- What becomes of a widget behind some names: one more hook, if its name is wanted and not among
them. -/
def hookFirst (hook : Hook Node) (wanted : List Text) (earlier : List Text) (w : Widget Node) :
    Widget Node :=
  if w.id.any fun name => wanted.contains name && !earlier.contains name then hooked hook w else w

/-- What a hook on every widget of a wanted name makes of a widget, whatever is in front of it. -/
def hookEvery (hook : Hook Node) (wanted : List Text) (_ : List Text) (w : Widget Node) :
    Widget Node :=
  if w.id.any wanted.contains then hooked hook w else w

variable {hook : Hook Node} {name : Text} {wanted : List Text}

theorem id_hooked (w : Widget Node) : (hooked hook w).id = w.id := by
  cases w <;> rfl

theorem id_hookFirst (earlier : List Text) (w : Widget Node) :
    (hookFirst hook wanted earlier w).id = w.id := by
  unfold hookFirst
  split
  · exact id_hooked w
  · rfl

theorem hookFirst_of_id {earlier : List Text} {w : Widget Node} (h : w.id = some name) :
    hookFirst hook wanted earlier w =
      if name ∈ wanted ∧ name ∉ earlier then hooked hook w else w := by
  simp [hookFirst, h]

theorem hookFirst_of_none {earlier : List Text} {w : Widget Node} (h : w.id = none) :
    hookFirst hook wanted earlier w = w := by
  simp [hookFirst, h]

theorem hookEvery_of_id {earlier : List Text} {w : Widget Node} (h : w.id = some name) :
    hookEvery hook wanted earlier w = if name ∈ wanted then hooked hook w else w := by
  simp [hookEvery, h]

theorem hookEvery_of_none {earlier : List Text} {w : Widget Node} (h : w.id = none) :
    hookEvery hook wanted earlier w = w := by
  simp [hookEvery, h]

theorem hookFirst_of_ne {earlier : List Text} {w : Widget Node} (h : w.id ≠ some name) :
    hookFirst hook [name] earlier w = w := by
  cases hid : w.id with
  | none => exact hookFirst_of_none hid
  | some other =>
    have hne : other ≠ name := by
      rintro rfl
      exact h hid
    rw [hookFirst_of_id hid, if_neg (by simp [hne])]

theorem hookFirst_of_mem {earlier : List Text} (h : name ∈ earlier) (w : Widget Node) :
    hookFirst hook [name] earlier w = w := by
  by_cases hid : w.id = some name
  · rw [hookFirst_of_id hid, if_neg (by simp [h])]
  · exact hookFirst_of_ne hid

theorem hookFirst_nil (earlier : List Text) (w : Widget Node) :
    hookFirst hook [] earlier w = w := by
  cases hid : w.id with
  | none => exact hookFirst_of_none hid
  | some name => rw [hookFirst_of_id hid, if_neg (by simp)]

/-- Two searches for different names are one search for both. The first one leaves the name of the
widget as it was, so the second decides as it would have without it. -/
theorem hookFirst_hookFirst (h : name ∉ wanted) (earlier : List Text) (w : Widget Node) :
    hookFirst hook wanted earlier (hookFirst hook [name] earlier w) =
      hookFirst hook (name :: wanted) earlier w := by
  cases hid : w.id with
  | none => rw [hookFirst_of_none hid, hookFirst_of_none hid, hookFirst_of_none hid]
  | some other =>
    have hid' : (hookFirst hook [name] earlier w).id = some other := by rw [id_hookFirst, hid]
    rw [hookFirst_of_id hid', hookFirst_of_id hid, hookFirst_of_id hid]
    by_cases heq : other = name
    · subst heq
      simp [h]
    · simp [heq]

/-- What is done to the first node of a name. -/
theorem getD_addHook? (hook : Hook Node) (n : Node) :
    (n.addHook? hook).getD n = { n with widget := n.widget.map (hooked hook) } := by
  obtain ⟨tag, conduct, widget, children⟩ := n
  rcases widget with _ | (e | ⟨kind, id⟩) <;> rfl

/-- Behind a name no widget is the first one of it. -/
theorem mapWidgetsAll_hookFirst_of_mem {earlier : List Text} (h : name ∈ earlier)
    (nodes : List Node) : mapWidgetsAll (hookFirst hook [name]) earlier nodes = nodes := by
  refine (mapWidgetsAll_congr earlier nodes fun before w behind _ => ?_).trans
    (mapWidgetsAll_same earlier nodes)
  exact hookFirst_of_mem (List.mem_append_left _ h) w

/-- A search for a name that no node has changes nothing. -/
theorem mapWidgetsAll_hookFirst_of_notMem (earlier : List Text) {nodes : List Node}
    (h : name ∉ ids nodes) : mapWidgetsAll (hookFirst hook [name]) earlier nodes = nodes := by
  refine (mapWidgetsAll_congr earlier nodes fun before w behind hsplit => ?_).trans
    (mapWidgetsAll_same earlier nodes)
  refine hookFirst_of_ne fun hid => h ?_
  rw [hsplit, hid]
  simp

theorem mapWidgets_hookFirst_of_notMem (earlier : List Text) {n : Node} (h : name ∉ ids [n]) :
    mapWidgets (hookFirst hook [name]) earlier n = n :=
  List.singleton_inj.mp (mapWidgetsAll_hookFirst_of_notMem earlier h)

mutual

/-- The search stops at the first node of the name: it fails if no node has it, and otherwise makes
the change that reaches the first widget only, if that is one that takes hooks. -/
theorem update?_hooked {earlier : List Text} (h : name ∉ earlier) : (n : Node) →
    update? name (fun n => (n.addHook? hook).getD n) n =
      if name ∈ ids [n] then some (mapWidgets (hookFirst hook [name]) earlier n) else none
  | ⟨tag, conduct, widget, children⟩ => by
    have hids := ids_singleton ⟨tag, conduct, widget, children⟩
    by_cases hname : widget.bind Widget.id = some name
    · have hmem : name ∈ ids [⟨tag, conduct, widget, children⟩] := by
        rw [hids]
        exact List.mem_append_left _ (by simp [id, hname])
      have hhas : hasId name ⟨tag, conduct, widget, children⟩ = true := by simp [hasId, id, hname]
      rw [update?, if_pos hhas, if_pos hmem, getD_addHook?, mapWidgets,
        mapWidgetsAll_hookFirst_of_mem (by simp [hname])]
      obtain ⟨w, rfl, hid⟩ := Option.bind_eq_some_iff.mp hname
      simp [hookFirst_of_id hid, h]
    -- The node has another name, so the search goes on below it, and it is passed over by the
    -- change.
    · have hiff : name ∈ ids [⟨tag, conduct, widget, children⟩] ↔ name ∈ ids children := by
        rw [hids]
        simp [id, hname]
      have hhas : ¬hasId name ⟨tag, conduct, widget, children⟩ = true := by simp [hasId, id, hname]
      have hearlier : name ∉ earlier ++ (widget.bind Widget.id).toList := by simp [h, hname]
      have hwidget : widget.map (hookFirst hook [name] earlier) = widget := by
        cases widget with
        | none => rfl
        | some w => exact congrArg some (hookFirst_of_ne hname)
      rw [update?, if_neg hhas, updateAll?_hooked hearlier children, mapWidgets, hwidget]
      simp only [hiff]
      split <;> rfl
termination_by structural n => n

theorem updateAll?_hooked {earlier : List Text} (h : name ∉ earlier) : (nodes : List Node) →
    updateAll? name (fun n => (n.addHook? hook).getD n) nodes =
      if name ∈ ids nodes then some (mapWidgetsAll (hookFirst hook [name]) earlier nodes) else none
  | [] => rfl
  | n :: nodes => by
    rw [updateAll?, update?_hooked h n, mapWidgetsAll]
    -- The first node that has the name gets the hook, and those behind it do not.
    by_cases hn : name ∈ ids [n]
    · have hmem : name ∈ ids (n :: nodes) := by
        rw [ids_cons]
        exact List.mem_append_left _ hn
      rw [if_pos hn, if_pos hmem, mapWidgetsAll_hookFirst_of_mem (List.mem_append_right _ hn)]
    · have hearlier : name ∉ earlier ++ ids [n] := by simp [h, hn]
      have hiff : name ∈ ids (n :: nodes) ↔ name ∈ ids nodes := by
        rw [ids_cons]
        simp [hn]
      rw [if_neg hn, updateAll?_hooked hearlier nodes, mapWidgets_hookFirst_of_notMem earlier hn]
      simp only [hiff]
      split <;> rfl
termination_by structural nodes => nodes

end

/-- The search for one name in a whole forest, which leaves the forest as it is when it finds
nothing. -/
theorem update_hooked (nodes : List Node) :
    update name (fun n => (n.addHook? hook).getD n) nodes =
      mapWidgetsAll (hookFirst hook [name]) [] nodes := by
  have hnil : name ∉ ([] : List Text) := List.not_mem_nil
  rw [update, updateAll?_hooked hnil nodes]
  split
  · rfl
  · next h => exact (mapWidgetsAll_hookFirst_of_notMem [] h).symm

/-- Where no wanted name is given twice, the first widget of a name is the only one. -/
theorem mapWidgetsAll_hookFirst_of_count {nodes : List Node}
    (h : ∀ name ∈ wanted, (ids nodes).count name ≤ 1) :
    mapWidgetsAll (hookFirst hook wanted) [] nodes =
      mapWidgetsAll (hookEvery hook wanted) [] nodes := by
  refine mapWidgetsAll_congr [] nodes fun before w behind hsplit => ?_
  cases hid : w.id with
  | none => rw [hookFirst_of_none hid, hookEvery_of_none hid]
  | some name =>
    rw [hookFirst_of_id hid, hookEvery_of_id hid]
    refine if_congr (and_iff_left_of_imp fun hmem hbefore => ?_) rfl rfl
    -- A second node of the name in front of this one would make two of them.
    have hcount := h name hmem
    rw [hsplit, hid] at hcount
    have hpos : 0 < before.count name := List.count_pos_iff.mpr hbefore
    simp at hcount
    omega

end Node

namespace Engine

open MarkupTemplate.Node

theorem attachHook_cons (hook : Hook Node) (name : Text) (wanted : List Text) (nodes : List Node) :
    attachHook hook (name :: wanted) nodes =
      attachHook hook wanted (mapWidgetsAll (hookFirst hook [name]) [] nodes) := by
  rw [← update_hooked]
  rfl

theorem map_tag_attachHook (hook : Hook Node) (wanted : List Text) (nodes : List Node) :
    (attachHook hook wanted nodes).map Node.tag = nodes.map Node.tag := by
  induction wanted generalizing nodes with
  | nil => rfl
  | cons name wanted ih => rw [attachHook_cons, ih, map_tag_mapWidgetsAll]

/-- **The searches for all wanted names are one walk** over the forest, if the names differ. -/
theorem attachHook_eq {wanted : List Text} (h : wanted.Nodup) (hook : Hook Node)
    (nodes : List Node) :
    attachHook hook wanted nodes = mapWidgetsAll (hookFirst hook wanted) [] nodes := by
  induction wanted generalizing nodes with
  | nil =>
    have hnil : hookFirst hook [] = fun _ w => w := by
      funext earlier w
      exact hookFirst_nil earlier w
    rw [hnil, mapWidgetsAll_same]
    rfl
  | cons name wanted ih =>
    obtain ⟨hname, hwanted⟩ := List.nodup_cons.mp h
    rw [attachHook_cons, ih hwanted, mapWidgetsAll_mapWidgetsAll id_hookFirst]
    -- Each name is looked for in turn, which comes to the same as looking for all of them at once.
    simp only [hookFirst_hookFirst hname]

/-- **A hook reaches the first widget of each name.** The listener of a macro that gives names hangs
one copy of the hook on every widget that takes hooks, has a wanted name and is the first one of it,
in the order of the opening tags, and changes nothing else. Those are all widgets of the wanted
names if none of these is given twice. -/
theorem notifyOne_attach {wanted : List Text} (h : wanted.Nodup) (hook : Hook Node) (keep : Bool)
    (nodes : List Node) (machine : Machine) :
    notifyOne (.attach wanted hook keep) nodes machine =
      .ok (.attach wanted hook keep, if keep then .keep else .leave,
        mapWidgetsAll (hookFirst hook wanted) [] nodes) machine ∧
    ((∀ name ∈ wanted, (ids nodes).count name ≤ 1) →
      mapWidgetsAll (hookFirst hook wanted) [] nodes =
        mapWidgetsAll (hookEvery hook wanted) [] nodes) := by
  refine ⟨?_, mapWidgetsAll_hookFirst_of_count⟩
  rw [← attachHook_eq h]
  rfl

def clickHook : Hook Node := { event := .click, template := "x".toList }

/-- An element with a name and hooks. -/
def named (name : Text) (hooks : List (Hook Node)) (children : List Node) : Node where
  tag := { name := "element".toList }
  widget := some (.element { kind := "element".toList, id := some name, hooks })
  children := children

/-- The name of the outer element is given again, and that of the inner one is not. -/
theorem notifyOne_attach_nested :
    ["b".toList, "a".toList].Nodup ∧
    notifyOne (.attach ["b".toList, "a".toList] clickHook true)
        [named "a".toList [] [named "a".toList [] [named "b".toList [] []]]] {} =
      .ok (.attach ["b".toList, "a".toList] clickHook true, .keep,
        [named "a".toList [clickHook] [named "a".toList [] [named "b".toList [clickHook] []]]])
        {} ∧
    mapWidgetsAll (hookFirst clickHook ["b".toList]) []
        [named "a".toList [] [named "a".toList [] [named "b".toList [] []]]] =
      mapWidgetsAll (hookEvery clickHook ["b".toList]) []
        [named "a".toList [] [named "a".toList [] [named "b".toList [] []]]] := by
  have hdistinct : ["b".toList, "a".toList].Nodup := by decide
  have hone : ["b".toList].Nodup := by decide
  refine ⟨hdistinct, (notifyOne_attach hdistinct clickHook true _ {}).1, ?_⟩
  exact (notifyOne_attach hone clickHook true _ {}).2 (by decide)

def hookCount (n : Node) : Nat :=
  match n.widget with
  | some (.element e) => e.hooks.length
  | _ => 0

/-- The second of two widgets of one name goes without the hook. -/
theorem not_attachHook_every : ¬∀ (hook : Hook Node) (wanted : List Text) (nodes : List Node),
    wanted.Nodup →
      attachHook hook wanted nodes = mapWidgetsAll (hookEvery hook wanted) [] nodes := by
  intro h
  have hnodes := h clickHook ["a".toList] [named "a".toList [] [], named "a".toList [] []] (by decide)
  have hcounts : [1, 0] = [1, 1] := congrArg (List.map hookCount) hnodes
  simp at hcounts

end Engine

end MarkupTemplate
