import PlantGrowth.Proofs.Copies

/-!
# Prototypes

A prototype is a subtree out of the scene, all of it dead and hidden. It is made of a subtree that
was grown in the scene (`Arena.Seals`), and from then on nothing of it changes: a node that is hidden
is the same for good, and so is the form of the tree that it belongs to (`Scene.sameTree_of_hidden`).

Copies of a prototype are taken into the scene and shown.
-/

namespace PlantGrowth
namespace Arena

variable {a b c : Arena} {id other root : NodeId} {parent : Option NodeId} {node state : Node}

/-! ## Trees that stay the same -/

/-- The tree under a root is the same if its nodes are, and what was gone is still gone. -/
theorem Scene.sameTree (scene : a.Scene) {rank : NodeId → Nat} (forest : b.Forest rank)
    (hpresent : a.present root = true)
    (h : ∀ {id node}, id ∈ a.subtree root → a.get? id = some node →
      ∃ later, b.get? id = some later ∧ node.Resembles later ∧ (id ≠ root → later.name = node.name) ∧
        later.children = node.children ∧ later.destroyed = node.destroyed)
    (hgone : ∀ {id node}, a.get? id = some node → node.destroyed = true →
      ∃ later, b.get? id = some later ∧ later.destroyed = true) : a.SameTree b root := by
  have hdrawn : ∀ {id}, id ∈ a.subtree root → b.present id = true := by
    intro id hid
    obtain ⟨node, hnode, hstays⟩ := present_iff.mp (scene.forest.present_of_mem_subtree hid)
    obtain ⟨later, hlater, -, -, -, hdestroyed⟩ := h hid hnode
    exact present_iff.mpr ⟨later, hlater, hdestroyed.trans hstays⟩
  have hbranches : ∀ id ∈ a.subtree root, b.branches id = a.branches id := by
    intro id hid
    obtain ⟨node, hnode, -⟩ := present_iff.mp (scene.forest.present_of_mem_subtree hid)
    obtain ⟨later, hlater, -, -, hchildren, -⟩ := h hid hnode
    rw [branches_eq hnode, branches_eq hlater, hchildren]
    refine List.filter_congr fun child hchild => ?_
    obtain ⟨below, hbelow, -⟩ := (scene.mem_children hnode).mp hchild
    cases hbelowGone : below.destroyed with
    | true =>
      obtain ⟨later', hlater', hgone'⟩ := hgone hbelow hbelowGone
      simp [present, hbelow, hlater', hbelowGone, hgone']
    | false =>
      have hthere : a.present child = true := present_iff.mpr ⟨below, hbelow, hbelowGone⟩
      have hmem := scene.forest.mem_subtree_of_mem_branches hid
        (mem_branches.mpr ⟨hthere, node, hnode, hchild⟩)
      rw [hthere, hdrawn hmem]
  refine ⟨?_, hbranches, fun {id node} hid hnode => ?_⟩
  · exact scene.forest.subtree_congr forest hpresent
      (hdrawn (scene.forest.self_mem_subtree hpresent)) hbranches
  · obtain ⟨later, hlater, hresembles, hname, -, -⟩ := h hid hnode
    exact ⟨later, hlater, hresembles, hname⟩

/-- **The tree under a hidden node is the same for good**, and so are its nodes. -/
theorem Scene.sameTree_of_hidden (scene : a.Scene) {rank : NodeId → Nat} (forest : b.Forest rank)
    (hext : a.Extends b) (hroot : a.get? root = some state) (hhidden : state.hidden = true)
    (hpresent : a.present root = true) :
    a.SameTree b root ∧ ∀ id ∈ a.subtree root, b.get? id = a.get? id := by
  have hsame : ∀ {id node}, id ∈ a.subtree root → a.get? id = some node → b.get? id = some node := by
    intro id node hid hnode
    refine hext.get?_of_hidden hnode ?_
    rw [(scene.hidden_of_mem_subtree hroot hid hnode).1, hhidden]
  refine ⟨scene.sameTree forest hpresent (fun {id node} hid hnode => ?_)
    fun {id node} hnode hgone => ?_, fun id hid => ?_⟩
  · exact ⟨node, hsame hid hnode, ⟨rfl, rfl, rfl, rfl, rfl, rfl⟩, fun _ => rfl, rfl, rfl⟩
  · obtain ⟨later, hlater, houtlives⟩ := hext hnode
    exact ⟨later, hlater, houtlives.destroyed hgone⟩
  · obtain ⟨node, hnode, -⟩ := present_iff.mp (scene.forest.present_of_mem_subtree hid)
    rw [hsame hid hnode, hnode]

/-! ## Sealing -/

/-- The arena `b` is `a` with the subtree under a node made a prototype. The rest of the scene has
only lost sight of it. -/
structure Seals (a b : Arena) (root : NodeId) : Prop where
  size : b.size = a.size
  inside : ∀ {id node}, id ∈ a.subtree root → a.get? id = some node →
    ∃ later, b.get? id = some later ∧ node.Resembles later ∧ (id ≠ root → later.name = node.name) ∧
      later.children = node.children ∧ later.destroyed = node.destroyed ∧
      later.previous = node.previous ∧ later.hidden = true ∧ later.dead = true ∧
      later.parent = if id = root then none else node.parent
  outside : ∀ {id node}, id ∉ a.subtree root → a.get? id = some node → b.get? id = some { node with
    children := if (a.get? root).bind (·.parent) = some id then node.children.filter (· != root)
      else node.children }

/-- A node as it is when `root` was taken out of the scene, in which it hung from `up`. -/
def without (root : NodeId) (up : Option NodeId) (id : NodeId) (node : Node) : Node :=
  { node with
    children := if up = some id then node.children.filter (· != root) else node.children
    parent := if root = id then none else node.parent }

theorem get?_detach (a : Arena) (root id : NodeId) :
    (a.hang root none).get? id =
      (a.get? id).map (without root ((a.get? root).bind (·.parent)) id) := by
  rw [get?_hang]
  simp
  rfl

theorem exists_of_get?_detach {later : Node} (h : (a.hang root none).get? id = some later) :
    ∃ node, a.get? id = some node ∧ later = without root ((a.get? root).bind (·.parent)) id node := by
  rw [get?_detach] at h
  obtain ⟨node, hnode, rfl⟩ := Option.map_eq_some_iff.mp h
  exact ⟨node, hnode, rfl⟩

theorem get?_detach_of_get? (h : a.get? id = some node) : (a.hang root none).get? id =
    some (without root ((a.get? root).bind (·.parent)) id node) := by
  rw [get?_detach, h, Option.map_some]

/-- **A node can be taken out of the scene.** -/
theorem Scene.detach (scene : a.Scene) (root : NodeId) : (a.hang root none).Scene where
  mem_children := (scene.joined.hang fun p hp => (by cases hp)).mem_children
  nodup_children := (scene.joined.hang fun p hp => (by cases hp)).nodup_children
  previous := by
    intro id later p hlater hp
    obtain ⟨node, hnode, rfl⟩ := exists_of_get?_detach hlater
    obtain ⟨hlt, state, hstate, hsolid⟩ := scene.previous hnode hp
    exact ⟨hlt, _, get?_detach_of_get? hstate, hsolid⟩
  parent := by
    intro id later p hlater hp
    obtain ⟨node, hnode, rfl⟩ := exists_of_get?_detach hlater
    unfold without at hp
    split at hp
    · cases hp
    · exact (scene.parent hnode hp :)
  shown := by
    intro id later p state hlater hp hstate
    obtain ⟨node, hnode, rfl⟩ := exists_of_get?_detach hlater
    obtain ⟨above, habove, rfl⟩ := exists_of_get?_detach hstate
    unfold without at hp
    split at hp
    · cases hp
    · exact (scene.shown hnode hp habove :)
  sealed := by
    intro id later hlater hhidden
    obtain ⟨node, hnode, rfl⟩ := exists_of_get?_detach hlater
    exact (scene.sealed hnode hhidden :)
  gone := by
    intro id later hlater hgone
    obtain ⟨node, hnode, rfl⟩ := exists_of_get?_detach hlater
    exact (scene.gone hnode hgone :)

/-- What the root of a subtree hangs from is not in the subtree. -/
theorem Scene.parent_not_mem_subtree (scene : a.Scene) {up : NodeId}
    (hup : (a.get? root).bind (·.parent) = some up) : up ∉ a.subtree root := by
  obtain ⟨state, hstate, hparent⟩ := Option.bind_eq_some_iff.mp hup
  exact fun hmem => absurd (scene.parent_lt hstate hparent)
    (Nat.not_lt_of_le (scene.le_of_mem_subtree hmem))

/-- **Freezing a subtree and naming it makes a prototype of it.** -/
theorem Scene.seals_freeze (scene : a.Scene) (hpresent : a.present root = true) (name : String) :
    a.Seals ((a.freeze root).rename root name) root := by
  have hdetached := scene.detach root
  have htree : a.SameTree (a.hang root none) root := by
    refine scene.sameTree hdetached.forest hpresent (fun {id node} hid hnode => ?_)
      fun {id node} hnode hgone => ⟨_, get?_detach_of_get? hnode, hgone⟩
    refine ⟨_, get?_detach_of_get? hnode, ⟨rfl, rfl, rfl, rfl, rfl, rfl⟩, fun _ => rfl, ?_, rfl⟩
    unfold without
    exact if_neg fun hup => scene.parent_not_mem_subtree hup hid
  have hget : ∀ id, (a.freeze root).get? id = if id ∈ a.subtree root
      then ((a.hang root none).get? id).map fun node => { node with dead := true, hidden := true }
      else (a.hang root none).get? id := by
    intro id
    rw [freeze, get?_modifyAll (hdetached.forest.nodup_subtree root), htree.subtree]
  refine ⟨?_, fun {id node} hid hnode => ?_, fun {id node} hid hnode => ?_⟩
  · rw [rename, size_modify, freeze, size_modifyAll, size_hang]
  · have hchildren : (without root ((a.get? root).bind (·.parent)) id node).children =
        node.children := by
      unfold without
      exact if_neg fun hup => scene.parent_not_mem_subtree hup hid
    rw [rename, get?_modify, hget, if_pos hid, get?_detach_of_get? hnode]
    by_cases heq : root = id
    · rw [if_pos heq]
      refine ⟨_, rfl, ⟨rfl, rfl, rfl, rfl, rfl, rfl⟩, fun hne => absurd heq.symm hne, hchildren, rfl,
        rfl, rfl, rfl, ?_⟩
      simp only [without, if_pos heq, if_pos heq.symm]
    · rw [if_neg heq]
      refine ⟨_, rfl, ⟨rfl, rfl, rfl, rfl, rfl, rfl⟩, fun _ => rfl, hchildren, rfl, rfl, rfl, rfl, ?_⟩
      simp only [without, if_neg heq, if_neg (Ne.symm heq)]
  · have hne : root ≠ id := fun heq => hid (heq ▸ scene.forest.self_mem_subtree hpresent)
    rw [rename, get?_modify, if_neg hne, hget, if_neg hid, get?_detach_of_get? hnode]
    simp only [without, if_neg hne]

namespace Seals

variable (h : a.Seals b root) (scene : a.Scene) (hroot : a.get? root = some state)
  (hpresent : a.present root = true)

include h in
/-- A node of the later arena belongs to the prototype or does not. -/
theorem cases_get? {later : Node} (hlater : b.get? id = some later) : ∃ node,
    a.get? id = some node ∧ ((id ∈ a.subtree root ∧ later.hidden = true ∧ later.dead = true ∧
        later.ethereal = node.ethereal ∧ later.destroyed = node.destroyed ∧
        later.parent = if id = root then none else node.parent) ∨
      (id ∉ a.subtree root ∧ later = { node with
        children := if (a.get? root).bind (·.parent) = some id then node.children.filter (· != root)
          else node.children })) := by
  have hlt := lt_size_of_get? hlater
  rw [h.size] at hlt
  obtain ⟨node, hnode⟩ := exists_get? hlt
  refine ⟨node, hnode, ?_⟩
  by_cases hid : id ∈ a.subtree root
  · obtain ⟨later', hlater', hresembles, -, -, hdestroyed, -, hhidden, hdead, hparent⟩ :=
      h.inside hid hnode
    obtain rfl : later' = later := Option.some.inj (hlater'.symm.trans hlater)
    exact Or.inl ⟨hid, hhidden, hdead, hresembles.ethereal, hdestroyed, hparent⟩
  · have hsame := h.outside hid hnode
    exact Or.inr ⟨hid, Option.some.inj (hlater.symm.trans hsame)⟩

include h scene hpresent

theorem ties : (a.hang root none).Ties b := by
  refine ⟨h.size.trans (size_hang a root none).symm, fun {id later} hlater => ?_⟩
  obtain ⟨node, hnode, rfl⟩ := exists_of_get?_detach hlater
  by_cases hid : id ∈ a.subtree root
  · obtain ⟨later, hlater, hresembles, -, hchildren, hdestroyed, hprevious, -, -, hparent⟩ :=
      h.inside hid hnode
    have hup : ¬ (a.get? root).bind (·.parent) = some id :=
      fun hup => scene.parent_not_mem_subtree hup hid
    refine ⟨later, hlater, hprevious, ?_, ?_, hresembles.ethereal, fun hgone => ?_, fun hgone => ?_⟩
    · rw [hparent]
      simp only [without, eq_comm]
    · rw [hchildren]
      simp only [without, if_neg hup]
    · exact hdestroyed.trans hgone
    · exact hresembles.ethereal.trans (scene.gone hnode (hdestroyed.symm.trans hgone))
  · have hne : root ≠ id := fun heq => hid (heq ▸ scene.forest.self_mem_subtree hpresent)
    refine ⟨_, h.outside hid hnode, rfl, ?_, rfl, rfl, fun hgone => hgone, fun hgone => ?_⟩
    · simp only [without, if_neg hne]
    · exact (scene.gone hnode hgone :)

/-- **The scene without a prototype.** -/
theorem toScene (hsolid : ∀ {id node}, id ∈ a.subtree root → a.get? id = some node →
    node.ethereal = false) : b.Scene := by
  refine (h.ties scene hpresent).scene (scene.detach root) (fun {id later p above'} hlater hp habove' => ?_)
    fun {id later} hlater hhidden => ?_
  · obtain ⟨node, hnode, ⟨hid, hhidden, -, -, -, hparent⟩ | ⟨hid, rfl⟩⟩ := h.cases_get? hlater
    · rw [hparent] at hp
      by_cases heq : id = root
      · rw [if_pos heq] at hp
        cases hp
      · rw [if_neg heq] at hp
        obtain ⟨q, hq, hup⟩ := scene.forest.parent_of_mem_subtree hid heq hnode
        obtain rfl : p = q := Option.some.inj (hp.symm.trans hup)
        obtain ⟨above, -, ⟨-, hhidden', -⟩ | ⟨hout, -⟩⟩ := h.cases_get? habove'
        · exact Or.inr (hhidden.trans hhidden'.symm)
        · exact absurd hq hout
    · obtain ⟨above, habove, ⟨hin, -⟩ | ⟨hout, rfl⟩⟩ := h.cases_get? habove'
      · -- A child of a node of the prototype that does not belong to it is gone.
        refine Or.inl ?_
        by_contra hstays
        refine hid (scene.forest.mem_subtree_of_mem_branches hin (mem_branches.mpr ⟨?_, above, habove, ?_⟩))
        · exact present_iff.mpr ⟨node, hnode, by simpa using hstays⟩
        · exact (scene.mem_children habove).mpr ⟨node, hnode, hp⟩
      · exact (scene.shown hnode hp habove :)
  · obtain ⟨node, hnode, ⟨hid, -, hdead, hethereal, -⟩ | ⟨-, rfl⟩⟩ := h.cases_get? hlater
    · exact ⟨hdead, hethereal.trans (hsolid hid hnode)⟩
    · exact (scene.sealed hnode hhidden :)

include hroot

/-- What is hidden already is not changed, and does not lose sight of the prototype. -/
theorem extended (hshown : state.hidden = false)
    (hsolid : ∀ {id node}, id ∈ a.subtree root → a.get? id = some node → node.ethereal = false) :
    a.Extends b := by
  intro id node hnode
  by_cases hid : id ∈ a.subtree root
  · obtain ⟨later, hlater, hresembles, -, -, hdestroyed, hprevious, -, hdead, -⟩ := h.inside hid hnode
    refine ⟨later, hlater, hresembles.symbol, hprevious, hresembles.ethereal, hresembles.baked,
      hresembles.prefab, fun hethereal => ?_, fun _ => hdead, fun hgone => hdestroyed.trans hgone,
      fun hhidden => ?_⟩
    · rw [hsolid hid hnode] at hethereal
      cases hethereal
    · rw [(scene.hidden_of_mem_subtree hroot hid hnode).1, hshown] at hhidden
      cases hhidden
  · refine ⟨_, h.outside hid hnode, rfl, rfl, rfl, rfl, rfl, fun _ => rfl, fun h => h, fun h => h,
      fun hhidden => ?_⟩
    have hup : ¬ (a.get? root).bind (·.parent) = some id := by
      intro hup
      rw [hroot, Option.bind_some] at hup
      obtain ⟨state', hstate', hstays⟩ := present_iff.mp hpresent
      obtain rfl : state = state' := Option.some.inj (hroot.symm.trans hstate')
      rcases scene.shown hroot hup hnode with hgone | heq
      · rw [hstays] at hgone
        cases hgone
      · rw [hshown, hhidden] at heq
        cases heq
    rw [if_neg hup]

omit hroot hpresent in
/-- What is older than the root is hidden or shown as before. -/
theorem shows : a.Shows b root := by
  intro id node later hlt hnode hlater
  have hid : id ∉ a.subtree root := fun hid =>
    absurd hlt (Nat.not_lt_of_le (scene.le_of_mem_subtree hid))
  rw [h.outside hid hnode] at hlater
  rw [← Option.some.inj hlater]

omit hroot in
/-- The tree has kept its form. -/
theorem sameTree (hsolid : ∀ {id node}, id ∈ a.subtree root → a.get? id = some node →
    node.ethereal = false) : a.SameTree b root := by
  refine scene.sameTree (h.toScene scene hpresent hsolid).forest hpresent
    (fun {id node} hid hnode => ?_) fun {id node} hnode hgone => ?_
  · obtain ⟨later, hlater, hresembles, hname, hchildren, hdestroyed, -⟩ := h.inside hid hnode
    exact ⟨later, hlater, hresembles, hname, hchildren, hdestroyed⟩
  · by_cases hid : id ∈ a.subtree root
    · obtain ⟨later, hlater, -, -, -, hdestroyed, -⟩ := h.inside hid hnode
      exact ⟨later, hlater, hdestroyed.trans hgone⟩
    · exact ⟨_, h.outside hid hnode, hgone⟩

end Seals

/-! ## Instances -/

/-- No node of the earlier arena is gone that was not gone before. -/
def Spares (a b : Arena) : Prop :=
  ∀ ⦃id node later⦄, a.get? id = some node → b.get? id = some later →
    later.destroyed = node.destroyed

theorem Spares.trans (h : a.Spares b) (hext : a.Extends b) (h' : b.Spares c) : a.Spares c := by
  intro id node later hnode hlater
  obtain ⟨mid, hmid, -⟩ := hext hnode
  exact (h' hmid hlater).trans (h hnode hmid)

/-- The arena `b` is `a` with an instance of a prototype, whose first node is `a.size`. Of the nodes
that were there before, none that is older than `bound` was hidden or shown. -/
structure Gains (a b : Arena) (bound : NodeId) : Prop where
  extended : a.Extends b
  spares : a.Spares b
  shows : a.Shows b bound
  scene : b.Scene
  present : b.present a.size = true
  opened : b.Open a.size
  /-- The nodes of the instance are structure that has grown already. -/
  new : ∀ {id later}, a.size ≤ id → b.get? id = some later →
    later.ethereal = false ∧ later.hidden = false ∧ later.dead = true

theorem Copied.extended (h : a.Copied b root parent)
    (hshown : ∀ p state, parent = some p → a.get? p = some state → state.hidden = false) :
    a.Extends b := by
  intro id node hnode
  refine ⟨_, h.kept hnode, rfl, rfl, rfl, rfl, rfl, fun _ => rfl, fun h => h, fun h => h,
    fun hhidden => ?_⟩
  have hother : ¬ parent = some id := fun hp => by
    rw [hshown id node hp hnode] at hhidden
    cases hhidden
  rw [if_neg hother, List.append_nil]

theorem Copied.shows (h : a.Copied b root parent) (bound : NodeId) : a.Shows b bound := by
  intro id node later _ hnode hlater
  rw [h.kept hnode] at hlater
  rw [← Option.some.inj hlater]

theorem Copied.spares (h : a.Copied b root parent) : a.Spares b := by
  intro id node later hnode hlater
  rw [h.kept hnode] at hlater
  rw [← Option.some.inj hlater]

theorem Copied.present (h : a.Copied b root parent) (scene : a.Scene)
    (hpresent : a.present root = true) : b.present a.size = true := by
  obtain ⟨source, copy, -, hcopy, hlinks⟩ := h.get?_size scene hpresent
  exact present_iff.mpr ⟨copy, hcopy, hlinks.destroyed⟩

/-- What is copied keeps its form, if the copy does not hang from it. -/
theorem Copied.sameTree (h : a.Copied b root parent) (scene : a.Scene)
    (hpresent : a.present root = true) {rank : NodeId → Nat} (forest : b.Forest rank)
    (hout : ∀ p, parent = some p → p ∉ a.subtree root) : a.SameTree b root := by
  refine scene.sameTree forest hpresent (fun {id node} hid hnode => ?_)
    fun {id node} hnode hgone => ⟨_, h.kept hnode, hgone⟩
  refine ⟨_, h.kept hnode, ⟨rfl, rfl, rfl, rfl, rfl, rfl⟩, fun _ => rfl, ?_, rfl⟩
  rw [if_neg fun hp => hout id hp hid, List.append_nil]

/-- The first node of a copy is open if it is shown below a node that is shown. -/
theorem Copied.opened (h : a.Copied b root parent) (scene : a.Scene) (hpresent : a.present root = true)
    (hparent : ∀ p state, parent = some p → a.get? p = some state → state.hidden = false)
    (hlt : ∀ p, parent = some p → p < a.size)
    (hshown : ∀ {id later}, a.size ≤ id → b.get? id = some later → later.hidden = false) :
    b.Open a.size := by
  obtain ⟨source, copy, -, hcopy, hlinks⟩ := h.get?_size scene hpresent
  refine ⟨copy, hcopy, hshown (Nat.le_refl _) hcopy, fun p above hp habove => ?_⟩
  rw [hlinks.previous, hlinks.parent, if_pos rfl] at hp
  obtain ⟨state, hstate⟩ := exists_get? (hlt p hp)
  rw [h.kept hstate] at habove
  rw [← Option.some.inj habove]
  exact hparent p state hp hstate

/-- A change of the new nodes, the first of which is also renamed. -/
theorem get?_rename_modifyAll {first : NodeId} (hnodup : (a.subtree first).Nodup)
    (hmem : ∀ {id}, id ∈ a.subtree first ↔ first ≤ id ∧ id < a.size) (change : Node → Node)
    (name : String) (id : NodeId) :
    ((a.modifyAll (a.subtree first) change).rename first name).get? id =
      if first ≤ id then (a.get? id).map fun node =>
        if first = id then { change node with name } else change node
      else a.get? id := by
  rw [rename, get?_modify, get?_modifyAll hnodup]
  cases hid : a.get? id with
  | none => simp
  | some node =>
    have hlt := lt_size_of_get? hid
    simp only [hmem, hlt, and_true]
    by_cases hlarge : first ≤ id
    · by_cases hfirst : first = id
      · simp only [if_pos hfirst, if_pos hlarge, Option.map_some]
      · simp only [if_neg hfirst, if_pos hlarge, Option.map_some]
    · have hfirst : ¬ first = id := fun hfirst => hlarge (Nat.le_of_eq hfirst)
      simp only [if_neg hfirst, if_neg hlarge]

/-- **An instance of a prototype can be taken into the scene**, below a solid node that is shown. It is
alike to the prototype, of which nothing changes. -/
theorem Scene.gains_copyPrototype (scene : a.Scene) (hroot : a.get? root = some state)
    (hhidden : state.hidden = true) (hstays : state.destroyed = false)
    (hfits : ∀ p, parent = some p →
      ∃ above, a.get? p = some above ∧ above.ethereal = false ∧ above.hidden = false)
    (placement : Transform) (name : String) :
    (a.copyPrototype root parent placement).1 = some a.size ∧
      a.Copied ((a.copyPrototype root parent placement).2.rename a.size name) root parent ∧
      a.Gains ((a.copyPrototype root parent placement).2.rename a.size name) a.size := by
  have hpresent : a.present root = true := present_iff.mpr ⟨state, hroot, hstays⟩
  have hlt : ∀ p, parent = some p → p < a.size := fun p hp => by
    obtain ⟨above, habove, -⟩ := hfits p hp
    exact lt_size_of_get? habove
  have hshownAbove : ∀ p above, parent = some p → a.get? p = some above → above.hidden = false := by
    intro p above hp habove
    obtain ⟨above', habove', -, hshown⟩ := hfits p hp
    obtain rfl : above = above' := Option.some.inj (habove.symm.trans habove')
    exact hshown
  obtain ⟨copied, hcopied⟩ : ∃ copied, copied = (a.copySubtree root parent placement).2 := ⟨_, rfl⟩
  have hcopy : a.Copied copied root parent := hcopied ▸ scene.copied_copySubtree hpresent hlt placement
  have heq : a.copyPrototype root parent placement = (some a.size,
      copied.modifyAll (copied.subtree a.size) fun node => { node with hidden := false }) := by
    rw [hcopied, copyPrototype, copySubtree_eq scene.forest hpresent]
  rw [heq]
  have hget := get?_rename_modifyAll ((hcopy.forest scene hpresent hlt).nodup_subtree a.size)
    (hcopy.mem_subtree_iff scene hpresent hlt) (fun node => { node with hidden := false }) name
  have hsize : ((copied.modifyAll (copied.subtree a.size)
      fun node => { node with hidden := false }).rename a.size name).size = copied.size := by
    rw [rename, size_modify, size_modifyAll]
  generalize (copied.modifyAll (copied.subtree a.size)
    fun node => { node with hidden := false }).rename a.size name = later at hget hsize
  have htouched : a.Copied later root parent := by
    refine hcopy.touch scene hsize (fun {id} hold => ?_) fun {id copy} hlarge hcopy' => ?_
    · rw [hget, if_neg (Nat.not_le_of_lt hold)]
    · rw [hget, if_pos hlarge, hcopy', Option.map_some]
      by_cases hfirst : a.size = id
      · rw [if_pos hfirst]
        exact ⟨_, rfl, ⟨rfl, rfl, rfl, rfl, rfl, rfl⟩, fun hne => absurd hfirst.symm hne, fun h => h,
          rfl, rfl, rfl, rfl⟩
      · rw [if_neg hfirst]
        exact ⟨_, rfl, ⟨rfl, rfl, rfl, rfl, rfl, rfl⟩, fun _ => rfl, fun h => h, rfl, rfl, rfl, rfl⟩
  have hshown : ∀ {id node}, a.size ≤ id → later.get? id = some node → node.hidden = false := by
    intro id node hlarge hnode
    rw [hget, if_pos hlarge] at hnode
    obtain ⟨copy, -, rfl⟩ := Option.map_eq_some_iff.mp hnode
    split
    · rfl
    · rfl
  refine ⟨rfl, htouched, htouched.extended hshownAbove, htouched.spares, htouched.shows _,
    htouched.scene_of_shown scene hpresent hfits hshown, htouched.present scene hpresent,
    htouched.opened scene hpresent hshownAbove hlt hshown, fun {id node} hlarge hnode => ?_⟩
  · -- What is copied is dead and solid, because it is hidden.
    rcases htouched.cases_get? scene hnode with ⟨before, hbefore, -⟩ | ⟨before, source, hbefore, rfl, hsource, hlinks⟩
    · exact absurd (lt_size_of_get? hbefore) (Nat.not_lt_of_le hlarge)
    · have hsourceHidden := (scene.hidden_of_mem_subtree hroot hbefore hsource).1.trans hhidden
      obtain ⟨hdead, hsolid⟩ := scene.sealed hsource hsourceHidden
      exact ⟨hlinks.resembles.ethereal.trans hsolid, hshown hlarge hnode, hlinks.dead hdead⟩

/-! ## Publishing -/

theorem Shows.trans {bound : NodeId} (h : a.Shows b bound) (hext : a.Extends b)
    (h' : b.Shows c bound) : a.Shows c bound := by
  intro id node later hlt hnode hlater
  obtain ⟨mid, hmid, -⟩ := hext hnode
  exact (h' hlt hmid hlater).trans (h hlt hnode hmid)

/-- Moving a subtree to the origin changes nothing but placements, and those of its nodes only. -/
theorem Scene.exists_of_moveToOrigin (scene : a.Scene) (hpresent : a.present root = true)
    (hnode : a.get? id = some node) : ∃ transform,
      (a.moveToOrigin root).get? id = some { node with transform } ∧
        (id ∉ a.subtree root → transform = node.transform) := by
  obtain ⟨state, hstate, -⟩ := present_iff.mp hpresent
  unfold moveToOrigin
  simp only [hstate]
  rw [place, get?_modify, get?_modifyAll (scene.forest.nodup_subtree root), hnode]
  by_cases hid : id ∈ a.subtree root
  · by_cases heq : root = id
    · rw [if_pos heq, if_pos hid]
      exact ⟨_, rfl, fun hout => absurd hid hout⟩
    · rw [if_neg heq, if_pos hid]
      exact ⟨_, rfl, fun hout => absurd hid hout⟩
  · have hne : ¬ root = id := fun heq => hid (heq ▸ scene.forest.self_mem_subtree hpresent)
    rw [if_neg hne, if_neg hid]
    exact ⟨node.transform, rfl, fun _ => rfl⟩

theorem Scene.spares_moveToOrigin (scene : a.Scene) (hpresent : a.present root = true) :
    a.Spares (a.moveToOrigin root) := by
  intro id node later hnode hlater
  obtain ⟨transform, hget, -⟩ := scene.exists_of_moveToOrigin hpresent hnode
  rw [hget] at hlater
  rw [← Option.some.inj hlater]

theorem size_moveToOrigin (a : Arena) (root : NodeId) : (a.moveToOrigin root).size = a.size := by
  unfold moveToOrigin
  split
  · rfl
  · rw [place, size_modify, size_modifyAll]

/-- A subtree that is shown stays as it is when it is moved. -/
theorem Scene.stays_moveToOrigin (scene : a.Scene) (hroot : a.get? root = some state)
    (hpresent : a.present root = true) (hshown : state.hidden = false) :
    a.Stays (a.moveToOrigin root) := by
  refine ⟨size_moveToOrigin a root, fun {id node} hnode => ?_⟩
  obtain ⟨transform, hmoved, hkept⟩ := scene.exists_of_moveToOrigin hpresent hnode
  refine ⟨_, hmoved, ⟨rfl, rfl, rfl, rfl, rfl, fun _ => rfl, fun h => h, fun h => h,
    fun hhidden => ?_⟩, rfl, rfl, rfl, fun h => Or.inl h⟩
  have hout : id ∉ a.subtree root := fun hid => by
    rw [(scene.hidden_of_mem_subtree hroot hid hnode).1, hshown] at hhidden
    cases hhidden
  rw [hkept hout]

theorem Scene.sameTree_moveToOrigin (scene : a.Scene) (hroot : a.get? root = some state)
    (hpresent : a.present root = true) (hshown : state.hidden = false) :
    a.SameTree (a.moveToOrigin root) root := by
  refine scene.sameTree ((scene.stays_moveToOrigin hroot hpresent hshown).scene scene).forest hpresent
    (fun {id node} _ hnode => ?_) fun {id node} hnode hgone => ?_
  · obtain ⟨transform, hmoved, -⟩ := scene.exists_of_moveToOrigin hpresent hnode
    exact ⟨_, hmoved, ⟨rfl, rfl, rfl, rfl, rfl, rfl⟩, fun _ => rfl, rfl, rfl⟩
  · obtain ⟨transform, hmoved, -⟩ := scene.exists_of_moveToOrigin hpresent hnode
    exact ⟨_, hmoved, hgone⟩

/-- The arena `b` is `a` with a copy of the subtree under `root`, whose first node is `a.size`. Of the
nodes that were there before, none that is older than `bound` was hidden or shown. -/
structure Duplicates (a b : Arena) (root bound : NodeId) : Prop where
  extended : a.Extends b
  spares : a.Spares b
  shows : a.Shows b bound
  scene : b.Scene
  tree : a.SameTree b root
  alike : Alike b root b a.size
  mem_subtree_iff : ∀ {id}, id ∈ b.subtree a.size ↔ a.size ≤ id ∧ id < b.size
  present : b.present a.size = true
  opened : b.Open a.size
  previous : ∀ {copy p}, b.get? a.size = some copy → copy.previous = some p → p < root
  new : ∀ {id later}, a.size ≤ id → b.get? id = some later →
    later.hidden = false ∧ later.ethereal = false

/-- A subtree of the scene that can be made a prototype: all of it is shown and solid. -/
structure Ripe (a : Arena) (root : NodeId) (state : Node) : Prop where
  scene : a.Scene
  get? : a.get? root = some state
  shown : state.hidden = false
  present : state.destroyed = false
  solid : ∀ {id node}, id ∈ a.subtree root → a.get? id = some node → node.ethereal = false
  opened : a.Open root

theorem Ripe.isPresent (h : a.Ripe root state) : a.present root = true :=
  present_iff.mpr ⟨state, h.get?, h.present⟩

theorem Ripe.shownPrevious (h : a.Ripe root state) {p : NodeId} {above : Node}
    (hp : state.previous = some p) (habove : a.get? p = some above) : above.hidden = false := by
  obtain ⟨state', hroot, -, hback⟩ := h.opened
  obtain rfl : state = state' := Option.some.inj (h.get?.symm.trans hroot)
  exact hback p above hp habove

/-- **A ripe subtree can be copied** to where it hangs. -/
theorem Ripe.duplicates_copySubtree (h : a.Ripe root state) (placement : Transform) :
    a.Duplicates (a.copySubtree root state.previous placement).2 root a.size := by
  obtain ⟨scene, hroot, hshown, -, hsolid, -⟩ := id h
  have hpresent := h.isPresent
  have hfits : ∀ p, state.previous = some p → ∃ above, a.get? p = some above ∧
      above.ethereal = false ∧ above.hidden = false := by
    intro p hp
    obtain ⟨-, above, habove, hsolidAbove⟩ := scene.previous hroot hp
    exact ⟨above, habove, hsolidAbove, h.shownPrevious hp habove⟩
  have hlt : ∀ p, state.previous = some p → p < a.size := fun p hp =>
    Nat.lt_trans (scene.previous hroot hp).1 (lt_size_of_get? hroot)
  have hout : ∀ p, state.previous = some p → p ∉ a.subtree root := fun p hp hmem =>
    absurd (scene.previous hroot hp).1 (Nat.not_lt_of_le (scene.le_of_mem_subtree hmem))
  have habove : ∀ p above, state.previous = some p → a.get? p = some above →
      above.hidden = false := fun p above => h.shownPrevious
  have hcopy := scene.copied_copySubtree hpresent hlt placement
  have hcopyShown : ∀ {id later}, a.size ≤ id →
      (a.copySubtree root state.previous placement).2.get? id = some later →
        later.hidden = false := by
    intro id later hlarge hlater
    rw [scene.hidden_copySubtree hpresent hlt placement hroot hlarge hlater, hshown]
  have hscene := hcopy.scene_of_shown scene hpresent hfits hcopyShown
  have htree := hcopy.sameTree scene hpresent hscene.forest hout
  refine ⟨hcopy.extended habove, hcopy.spares, hcopy.shows _, hscene, htree,
    ⟨_, (hcopy.carries scene hpresent hlt).later htree ?_⟩,
    hcopy.mem_subtree_iff scene hpresent hlt, hcopy.present scene hpresent,
    hcopy.opened scene hpresent habove hlt hcopyShown, fun {copy p} hcopy' hp => ?_,
    fun {id later} hlarge hlater => ?_⟩
  · exact SameTree.refl _ _
  · obtain ⟨source, copy', -, hfirst, hlinks⟩ := hcopy.get?_size scene hpresent
    obtain rfl : copy' = copy := Option.some.inj (hfirst.symm.trans hcopy')
    rw [hlinks.previous, hlinks.parent, if_pos rfl] at hp
    exact (scene.previous hroot hp).1
  · refine ⟨hcopyShown hlarge hlater, ?_⟩
    rcases hcopy.cases_get? scene hlater with
      ⟨before, hbefore, -⟩ | ⟨before, source, hbefore, -, hsource, hlinks⟩
    · exact absurd (lt_size_of_get? hbefore) (Nat.not_lt_of_le hlarge)
    · exact hlinks.resembles.ethereal.trans (hsolid hbefore hsource)

/-- A ripe subtree that was moved is ripe. -/
theorem Ripe.moveToOrigin (h : a.Ripe root state) :
    ∃ later, (a.moveToOrigin root).Ripe root later ∧ later.previous = state.previous := by
  obtain ⟨scene, hroot, hshown, hstays, hsolid, hopen⟩ := id h
  have hmove := scene.stays_moveToOrigin hroot h.isPresent hshown
  have htree := scene.sameTree_moveToOrigin hroot h.isPresent hshown
  obtain ⟨later, hlater, hnode⟩ := hmove.node hroot
  refine ⟨later, ⟨hmove.scene scene, hlater, hnode.hidden.trans hshown,
    (scene.spares_moveToOrigin h.isPresent hroot hlater).trans hstays, fun {id node} hid hnode' => ?_,
    hopen.of_extends scene hmove.extended (hmove.shows a.size) (lt_size_of_get? hroot)⟩,
    hnode.previous⟩
  rw [htree.subtree] at hid
  obtain ⟨before, hbefore, hstays'⟩ := hmove.exists_before hnode'
  exact hstays'.ethereal.trans (hsolid hid hbefore)

/-- A subtree that was moved before is copied as well. -/
theorem Duplicates.of_stays {bound : NodeId} (h : b.Duplicates c root bound) (hstays : a.Stays b)
    (hspares : a.Spares b) (htree : a.SameTree b root) : a.Duplicates c root bound := by
  have hsize := hstays.size
  have hshows : a.Shows c bound := (hstays.shows bound).trans hstays.extended h.shows
  obtain ⟨hextended, hspares', -, hscene, htree', halike, hmem, hpresent, hopened, hprevious, hnew⟩ := h
  rw [hsize] at halike hpresent hopened
  refine ⟨hstays.extended.trans hextended, hspares.trans hstays.extended hspares', hshows, hscene,
    htree.trans htree', halike, ?_, hpresent, hopened, ?_, ?_⟩
  · rwa [hsize] at hmem
  · rwa [hsize] at hprevious
  · rwa [hsize] at hnew

/-- **A ripe subtree can be moved to the origin and copied.** -/
theorem Ripe.duplicates (h : a.Ripe root state) (placement : Transform) :
    a.Duplicates ((a.moveToOrigin root).copySubtree root state.previous placement).2 root a.size := by
  obtain ⟨later, hripe, hprevious⟩ := h.moveToOrigin
  have hmove := h.scene.stays_moveToOrigin h.get? h.isPresent h.shown
  have hdup := hripe.duplicates_copySubtree placement
  rw [hprevious, hmove.size] at hdup
  exact hdup.of_stays hmove (h.scene.spares_moveToOrigin h.isPresent)
    (h.scene.sameTree_moveToOrigin h.get? h.isPresent h.shown)

section

variable {bound : NodeId}

/-- The nodes of the original are older than those of the copy. -/
theorem Duplicates.lt_of_mem_subtree (h : a.Duplicates b root bound) (scene : a.Scene)
    (hid : id ∈ b.subtree root) : id < a.size := by
  rw [h.tree.subtree] at hid
  obtain ⟨node, hnode, -⟩ := present_iff.mp (scene.forest.present_of_mem_subtree hid)
  exact lt_size_of_get? hnode

/-- The original is ripe still. -/
theorem Duplicates.ripe (h : a.Duplicates b root a.size) (hripe : a.Ripe root state) :
    ∃ later, b.Ripe root later := by
  have hlt := lt_size_of_get? hripe.get?
  obtain ⟨later, hlater, -⟩ := h.extended hripe.get?
  refine ⟨later, h.scene, hlater, (h.shows hlt hripe.get? hlater).trans hripe.shown,
    (h.spares hripe.get? hlater).trans hripe.present, fun {id node} hid hnode => ?_,
    hripe.opened.of_extends hripe.scene h.extended h.shows hlt⟩
  rw [h.tree.subtree] at hid
  obtain ⟨before, hbefore, -⟩ :=
    present_iff.mp (hripe.scene.forest.present_of_mem_subtree hid)
  obtain ⟨after, hafter, houtlives⟩ := h.extended hbefore
  obtain rfl : after = node := Option.some.inj (hafter.symm.trans hnode)
  exact houtlives.ethereal.trans (hripe.solid hid hbefore)

/-- What sealing the original leaves of the copy. -/
theorem Duplicates.get?_of_seals (h : a.Duplicates b root bound) (hseals : b.Seals c root)
    (scene : a.Scene) (hroot : root < a.size) (hlarge : a.size ≤ id) : c.get? id = b.get? id := by
  cases hnode : b.get? id with
  | none =>
    rw [get?_eq_none_iff, ← hseals.size] at hnode
    exact get?_eq_none_iff.mpr hnode
  | some node =>
    have hout : id ∉ b.subtree root := fun hid =>
      absurd (h.lt_of_mem_subtree scene hid) (Nat.not_lt_of_le hlarge)
    have hup : ¬ (b.get? root).bind (·.parent) = some id := by
      intro hup
      obtain ⟨above, habove, hparent⟩ := Option.bind_eq_some_iff.mp hup
      exact absurd (Nat.lt_trans (h.scene.parent_lt habove hparent) hroot) (Nat.not_lt_of_le hlarge)
    rw [hseals.outside hout hnode, if_neg hup]

/-- **The original can be sealed after it was copied.** -/
theorem Duplicates.sealed (h : a.Duplicates b root a.size) (hripe : a.Ripe root state)
    (hseals : b.Seals c root) : a.Duplicates c root root := by
  obtain ⟨later, hlater⟩ := h.ripe hripe
  have hsame : ∀ {id}, a.size ≤ id → c.get? id = b.get? id := fun hlarge =>
    h.get?_of_seals hseals hripe.scene (lt_size_of_get? hripe.get?) hlarge
  have hscene := hseals.toScene h.scene hlater.isPresent hlater.solid
  have hext := hseals.extended h.scene hlater.get? hlater.isPresent hlater.shown hlater.solid
  have htree := hseals.sameTree h.scene hlater.isPresent hlater.solid
  have hcopyTree : b.SameTree c a.size := by
    refine h.scene.sameTree hscene.forest h.present (fun {id node} hid hnode => ?_)
      fun {id node} hnode hgone => ?_
    · rw [hsame (h.mem_subtree_iff.mp hid).1]
      exact ⟨node, hnode, ⟨rfl, rfl, rfl, rfl, rfl, rfl⟩, fun _ => rfl, rfl, rfl⟩
    · obtain ⟨after, hafter, houtlives⟩ := hext hnode
      exact ⟨after, hafter, houtlives.destroyed hgone⟩
  obtain ⟨f, hf⟩ := h.alike
  have hspares : b.Spares c := by
    intro id node after hnode hafter
    by_cases hid : id ∈ b.subtree root
    · obtain ⟨after', hafter', -, -, -, hdestroyed, -⟩ := hseals.inside hid hnode
      rw [← Option.some.inj (hafter'.symm.trans hafter), hdestroyed]
    · rw [hseals.outside hid hnode] at hafter
      rw [← Option.some.inj hafter]
  have hlt := lt_size_of_get? hripe.get?
  refine ⟨h.extended.trans hext, h.spares.trans h.extended hspares, fun id node after hid => ?_,
    hscene, h.tree.trans htree, ⟨f, hf.later htree hcopyTree⟩, ?_, ?_, ?_, ?_, ?_⟩
  · intro hnode hafter
    obtain ⟨mid, hmid, -⟩ := h.extended hnode
    rw [hseals.shows h.scene hid hmid hafter]
    exact h.shows (Nat.lt_trans hid hlt) hnode hmid
  · intro id
    rw [hcopyTree.subtree, hseals.size]
    exact h.mem_subtree_iff
  · obtain ⟨node, hnode, hstays⟩ := present_iff.mp h.present
    exact present_iff.mpr ⟨node, (hsame (Nat.le_refl _)).trans hnode, hstays⟩
  · -- What the copy comes after is older than the original, and stays shown.
    obtain ⟨copy, hcopy, hshown, hback⟩ := h.opened
    refine ⟨copy, (hsame (Nat.le_refl _)).trans hcopy, hshown, fun p above hp habove => ?_⟩
    obtain ⟨-, before, hbefore, -⟩ := h.scene.previous hcopy hp
    exact (hseals.shows h.scene (h.previous hcopy hp) hbefore habove).trans (hback p before hp hbefore)
  · intro copy p hcopy hp
    rw [hsame (Nat.le_refl _)] at hcopy
    exact h.previous hcopy hp
  · intro id node hlarge hnode
    rw [hsame hlarge] at hnode
    exact h.new hlarge hnode

/-- A copy is killed and renamed. -/
def finishCopy (a : Arena) (first : NodeId) (name : String) : Arena :=
  (a.modifyAll (a.subtree first) fun node => { node with dead := true }).rename first name

/-- What finishing a copy changes. -/
theorem Duplicates.get?_finishCopy (h : a.Duplicates b root bound) (name : String) (id : NodeId) :
    (b.finishCopy a.size name).get? id = if a.size ≤ id then (b.get? id).map fun node =>
        if a.size = id then { node with dead := true, name } else { node with dead := true }
      else b.get? id :=
  get?_rename_modifyAll (h.scene.forest.nodup_subtree a.size) h.mem_subtree_iff _ name id

theorem Duplicates.stays_finishCopy (h : a.Duplicates b root bound) (name : String) :
    b.Stays (b.finishCopy a.size name) := by
  refine ⟨by rw [finishCopy, rename, size_modify, size_modifyAll], fun {id node} hnode => ?_⟩
  rw [h.get?_finishCopy, hnode]
  by_cases hlarge : a.size ≤ id
  · obtain ⟨hshown, hsolid⟩ := h.new hlarge hnode
    have hname : node.ethereal = true → ∀ other : String, other = node.name := fun hethereal => by
      rw [hsolid] at hethereal
      cases hethereal
    have hfrozen : node.hidden = true → ∀ other : Node, other = node := fun hhidden => by
      rw [hshown] at hhidden
      cases hhidden
    rw [if_pos hlarge, Option.map_some]
    by_cases hfirst : a.size = id
    · rw [if_pos hfirst]
      exact ⟨_, rfl, ⟨rfl, rfl, rfl, rfl, rfl, fun h => hname h _, fun _ => rfl, fun h => h,
        fun h => hfrozen h _⟩, rfl, rfl, rfl, fun h => Or.inl h⟩
    · rw [if_neg hfirst]
      exact ⟨_, rfl, ⟨rfl, rfl, rfl, rfl, rfl, fun h => hname h _, fun _ => rfl, fun h => h,
        fun h => hfrozen h _⟩, rfl, rfl, rfl, fun h => Or.inl h⟩
  · rw [if_neg hlarge]
    exact ⟨node, rfl, Node.Stays.refl node⟩

/-- **A copy is an instance once it was killed.** -/
theorem Duplicates.finished (h : a.Duplicates b root bound) (scene : a.Scene)
    (name : String) : a.Gains (b.finishCopy a.size name) bound ∧
      (∀ id < a.size, (b.finishCopy a.size name).get? id = b.get? id) ∧
      Alike (b.finishCopy a.size name) root (b.finishCopy a.size name) a.size := by
  have hstays := h.stays_finishCopy name
  have hscene := hstays.scene h.scene
  have hget := h.get?_finishCopy name
  have hold : ∀ id < a.size, (b.finishCopy a.size name).get? id = b.get? id := fun id hlt => by
    rw [hget, if_neg (Nat.not_le_of_lt hlt)]
  have hspares : b.Spares (b.finishCopy a.size name) := by
    intro id node later hnode hlater
    rw [hget, hnode] at hlater
    split at hlater
    · rw [Option.map_some] at hlater
      rw [← Option.some.inj hlater]
      split
      · rfl
      · rfl
    · rw [← Option.some.inj hlater]
  have hsame : ∀ {other}, b.present other = true → (∀ {id node}, id ∈ b.subtree other →
      b.get? id = some node → ∃ later, (b.finishCopy a.size name).get? id = some later ∧
        node.Resembles later ∧ (id ≠ other → later.name = node.name) ∧
        later.children = node.children ∧ later.destroyed = node.destroyed) →
      b.SameTree (b.finishCopy a.size name) other := fun hpresent hall =>
    h.scene.sameTree hscene.forest hpresent hall fun {id node} hnode hgone => by
      obtain ⟨later, hlater, hstays'⟩ := hstays.node hnode
      exact ⟨later, hlater, hstays'.destroyed hgone⟩
  have htree : b.SameTree (b.finishCopy a.size name) root := by
    obtain ⟨f, hf⟩ := h.alike
    refine hsame (h.scene.forest.present_of_mem_subtree hf.mem) fun {id node} hid hnode => ?_
    rw [hold id (h.lt_of_mem_subtree scene hid)]
    exact ⟨node, hnode, ⟨rfl, rfl, rfl, rfl, rfl, rfl⟩, fun _ => rfl, rfl, rfl⟩
  have hcopyTree : b.SameTree (b.finishCopy a.size name) a.size := by
    refine hsame h.present fun {id node} hid hnode => ?_
    rw [hget, if_pos (h.mem_subtree_iff.mp hid).1, hnode, Option.map_some]
    by_cases hfirst : a.size = id
    · rw [if_pos hfirst]
      exact ⟨_, rfl, ⟨rfl, rfl, rfl, rfl, rfl, rfl⟩, fun hne => absurd hfirst.symm hne, rfl, rfl⟩
    · rw [if_neg hfirst]
      exact ⟨_, rfl, ⟨rfl, rfl, rfl, rfl, rfl, rfl⟩, fun _ => rfl, rfl, rfl⟩
  obtain ⟨f, hf⟩ := h.alike
  refine ⟨⟨h.extended.trans hstays.extended, h.spares.trans h.extended hspares,
    h.shows.trans h.extended (hstays.shows bound), hscene, ?_,
    h.opened.of_extends h.scene hstays.extended (hstays.shows b.size) h.opened.lt_size,
    fun {id later} hlarge hlater => ?_⟩, hold, f, hf.later htree hcopyTree⟩
  · obtain ⟨copy, hcopy, hpresent⟩ := present_iff.mp h.present
    obtain ⟨later, hlater, -⟩ := hstays.node hcopy
    exact present_iff.mpr ⟨later, hlater, (hspares hcopy hlater).trans hpresent⟩
  · obtain ⟨node, hnode, hstays'⟩ := hstays.exists_before hlater
    obtain ⟨hshown, hsolid⟩ := h.new hlarge hnode
    refine ⟨hstays'.ethereal.trans hsolid, hstays'.hidden.trans hshown, ?_⟩
    rw [hget, if_pos hlarge, hnode, Option.map_some] at hlater
    rw [← Option.some.inj hlater]
    split
    · rfl
    · rfl

end

/-- A prototype: out of the scene, and hidden. -/
def IsPrototype (a : Arena) (root : NodeId) : Prop :=
  ∃ state, a.get? root = some state ∧ state.hidden = true ∧ state.parent = none ∧
    state.destroyed = false

/-- The arena when a prototype was published: the subtree under `root` is moved to the origin and
copied, then it is sealed, and the copy is killed. -/
def published (a : Arena) (root : NodeId) (parent : Option NodeId) (placement : Transform)
    (name copyName : String) : Arena :=
  let copied := ((a.moveToOrigin root).copySubtree root parent placement).2
  ((copied.freeze root).rename root name).finishCopy a.size copyName

/-- **Publishing makes a prototype and leaves an instance of it in the scene**, which is alike. -/
theorem Ripe.gains_published (h : a.Ripe root state) (placement : Transform)
    (name copyName : String) :
    a.Gains (a.published root state.previous placement name copyName) root ∧
      (a.published root state.previous placement name copyName).IsPrototype root ∧
      Alike (a.published root state.previous placement name copyName) root
        (a.published root state.previous placement name copyName) a.size := by
  have hdup := h.duplicates placement
  obtain ⟨later, hripe⟩ := hdup.ripe h
  have hseals := hdup.scene.seals_freeze hripe.isPresent name
  have hsealed := hdup.sealed h hseals
  have hlt := lt_size_of_get? h.get?
  obtain ⟨hgains, hold, halike⟩ := hsealed.finished h.scene copyName
  refine ⟨hgains, ?_, halike⟩
  obtain ⟨sealed, hroot, -, -, -, hdestroyed, -, hhidden, -, hparent⟩ :=
    hseals.inside (hdup.scene.forest.self_mem_subtree hripe.isPresent) hripe.get?
  rw [if_pos rfl] at hparent
  exact ⟨sealed, (hold root hlt).trans hroot, hhidden, hparent, hdestroyed.trans hripe.present⟩

/-- The instance that is left hangs from what the structure was made after. -/
theorem Ripe.get?_published (h : a.Ripe root state) (placement : Transform)
    (name copyName : String) :
    ∃ copy, (a.published root state.previous placement name copyName).get? a.size = some copy ∧
      copy.name = copyName ∧ copy.parent = state.previous := by
  obtain ⟨later, hmoved, -⟩ := h.moveToOrigin
  have hlt : ∀ p, state.previous = some p → p < (a.moveToOrigin root).size := fun p hp => by
    rw [size_moveToOrigin]
    exact Nat.lt_trans (h.scene.previous h.get? hp).1 (lt_size_of_get? h.get?)
  have hcopied := hmoved.scene.copied_copySubtree hmoved.isPresent hlt placement
  obtain ⟨source, copy, -, hcopy, hlinks⟩ := hcopied.get?_size hmoved.scene hmoved.isPresent
  rw [size_moveToOrigin] at hcopy
  have hdup := h.duplicates placement
  obtain ⟨before, hripe⟩ := hdup.ripe h
  have hseals := hdup.scene.seals_freeze hripe.isPresent name
  have hfinished := (hdup.sealed h hseals).get?_finishCopy copyName a.size
  rw [hdup.get?_of_seals hseals h.scene (lt_size_of_get? h.get?) (Nat.le_refl _),
    if_pos (Nat.le_refl _), hcopy, Option.map_some, if_pos rfl] at hfinished
  exact ⟨_, hfinished, rfl, hlinks.parent.trans (if_pos rfl)⟩

end Arena
end PlantGrowth
