import Mathlib.Logic.Relation
import PolicyGraph.Graph.Draft

/-!
# When a draft is a graph

`Reaches` is reachability along connectors, as a relation. `mem_unreached_iff` says that the search from
the root finds exactly the blocks that are not reached, and `build_eq_ok_iff` that a draft is built just
if it is sound: unique ids, connectors between known blocks, none into the root, and a path from the
root to every block. `builds_iff_sound` says this of every sequence of calls on a draft, in terms of what
the calls add and set.
-/

namespace PolicyGraph

/-! ## Reachability -/

/-- Some connector leads from one block to the other. -/
def Joined (cs : List Connector) (a b : BlockId) : Prop := ∃ c ∈ cs, c.source = a ∧ c.dest = b

/-- A path of connectors leads from one block to the other. It may be empty. -/
abbrev Reaches (cs : List Connector) : BlockId → BlockId → Prop := Relation.ReflTransGen (Joined cs)

/-- What a graph promises to those who deploy it. -/
structure Graph.Sound (g : Graph) : Prop where
  ids_nodup : (g.blocks.map Block.id).Nodup
  root_mem : g.root ∈ g.blocks.map Block.id
  ends_mem : ∀ c ∈ g.connectors, c.source ∈ g.blocks.map Block.id ∧ c.dest ∈ g.blocks.map Block.id
  dest_ne_root : ∀ c ∈ g.connectors, c.dest ≠ g.root
  reached : ∀ id ∈ g.blocks.map Block.id, Reaches g.connectors g.root id

/-! ## The search -/

section Search

variable {cs : List Connector} {frontier unseen ids : List BlockId} {a b root id : BlockId}

theorem mem_targets : b ∈ targets cs frontier ↔ ∃ a ∈ frontier, Joined cs a b := by
  simp only [targets, List.mem_map, List.mem_filter, List.contains_iff_mem]
  constructor
  · rintro ⟨c, ⟨hc, hsource⟩, rfl⟩
    exact ⟨c.source, hsource, c, hc, rfl, rfl⟩
  · rintro ⟨_, ha, c, hc, rfl, rfl⟩
    exact ⟨c, ⟨hc, ha⟩, rfl⟩

theorem mem_removeAll {xs ys : List BlockId} : b ∈ xs.removeAll ys ↔ b ∈ xs ∧ b ∉ ys := by
  simp [List.removeAll]

theorem unreached_subset (h : id ∈ unreached cs frontier unseen) : id ∈ unseen := by
  fun_induction unreached cs frontier unseen with
  | case1 frontier unseen next left _ ih =>
    simp only [List.unattach_filter, List.unattach_attach] at ih
    exact (mem_removeAll.mp (ih h)).1
  | case2 => exact h

/-- Whatever the search finds is reached from the frontier. -/
theorem reaches_of_not_mem_unreached (hid : id ∈ unseen) (h : id ∉ unreached cs frontier unseen) :
    ∃ a ∈ frontier, Reaches cs a id := by
  fun_induction unreached cs frontier unseen with
  | case1 frontier unseen next left _ ih =>
    simp only [List.unattach_filter, List.unattach_attach] at ih
    by_cases hnext : id ∈ next
    · obtain ⟨a, ha, hjoined⟩ := mem_targets.mp hnext
      exact ⟨a, ha, .single hjoined⟩
    · obtain ⟨b, hb, hreach⟩ := ih (mem_removeAll.mpr ⟨hid, hnext⟩) h
      obtain ⟨a, ha, hjoined⟩ := mem_targets.mp (List.contains_iff_mem.mp (List.mem_filter.mp hb).2)
      exact ⟨a, ha, .head hjoined hreach⟩
  | case2 => exact absurd hid h

/-- Nothing that the search has seen leads to what it does not find. -/
theorem mem_unreached_of_joined (hb : b ∈ unreached cs frontier unseen) (hjoined : Joined cs a b)
    (ha : a ∈ frontier ∨ a ∈ unseen) : a ∈ unreached cs frontier unseen := by
  fun_induction unreached cs frontier unseen with
  | case1 frontier unseen next left _ ih =>
    simp only [List.unattach_filter, List.unattach_attach] at ih
    have hleft := mem_removeAll.mp (unreached_subset hb)
    rcases ha with ha | ha
    · exact absurd (mem_targets.mpr ⟨a, ha, hjoined⟩) hleft.2
    · by_cases hnext : a ∈ next
      · exact ih hb (.inl (List.mem_filter.mpr ⟨ha, List.contains_iff_mem.mpr hnext⟩))
      · exact ih hb (.inr (mem_removeAll.mpr ⟨ha, hnext⟩))
  | case2 frontier unseen next left hstop =>
    rcases ha with ha | ha
    · -- The search stops only when the frontier leads to nothing that is left.
      exfalso
      have hnext : b ∈ next := mem_targets.mpr ⟨a, ha, hjoined⟩
      have hshorter : left.length < unseen.length := by
        refine List.length_filter_lt_length_iff_exists.mpr ⟨b, hb, ?_⟩
        simpa using hnext
      exact hstop hshorter
    · exact ha

/-- Everything on the way to a block that the search from the root misses is missed too. -/
theorem mem_unreached_of_reaches (hends : ∀ c ∈ cs, c.source ∈ ids) (hreach : Reaches cs a id)
    (hid : id ∈ unreached cs [root] (ids.filter (· != root))) :
    a ∈ unreached cs [root] (ids.filter (· != root)) := by
  induction hreach using Relation.ReflTransGen.head_induction_on with
  | refl => exact hid
  | head hjoined _ ih =>
    refine mem_unreached_of_joined ih hjoined ?_
    obtain ⟨c, hc, rfl, -⟩ := hjoined
    by_cases heq : c.source = root
    · exact .inl (List.mem_singleton.mpr heq)
    · exact .inr (List.mem_filter.mpr ⟨hends c hc, by simpa using heq⟩)

/-- The search from the root misses just the blocks that no path leads to. -/
theorem mem_unreached_iff (hends : ∀ c ∈ cs, c.source ∈ ids) :
    id ∈ unreached cs [root] (ids.filter (· != root)) ↔
      id ∈ ids ∧ ¬ Reaches cs root id := by
  constructor
  · intro hid
    refine ⟨(List.mem_filter.mp (unreached_subset hid)).1, fun hreach => ?_⟩
    -- The root would be missed too, but the search does not look for it.
    have hroot := unreached_subset (mem_unreached_of_reaches hends hreach hid)
    simp at hroot
  · rintro ⟨hmem, hnot⟩
    have hne : id ≠ root := by
      rintro rfl
      exact hnot .refl
    refine Decidable.byContradiction fun hid => ?_
    obtain ⟨a, ha, hreach⟩ :=
      reaches_of_not_mem_unreached (List.mem_filter.mpr ⟨hmem, by simpa using hne⟩) hid
    rw [List.mem_singleton] at ha
    exact hnot (ha ▸ hreach)

end Search

/-! ## Building -/

theorem firstRepeated?_eq_none_iff {seen as : List BlockId} :
    firstRepeated? seen as = none ↔ as.Nodup ∧ ∀ a ∈ as, a ∉ seen := by
  induction as generalizing seen with
  | nil => simp [firstRepeated?]
  | cons a rest ih =>
    unfold firstRepeated?
    split
    · next h => simp [h]
    · next h =>
      rw [ih, List.nodup_cons]
      constructor
      · rintro ⟨hnodup, hrest⟩
        refine ⟨⟨fun hmem => hrest a hmem List.mem_cons_self, hnodup⟩, ?_⟩
        rintro b (_ | ⟨_, hb⟩)
        · exact h
        · exact fun hseen => hrest b hb (List.mem_cons_of_mem _ hseen)
      · rintro ⟨⟨hnot, hnodup⟩, hall⟩
        refine ⟨hnodup, fun b hb hmem => ?_⟩
        rcases List.mem_cons.mp hmem with rfl | hseen
        · exact hnot hb
        · exact hall b (List.mem_cons_of_mem _ hb) hseen

namespace Draft

variable {d : Draft} {root : BlockId}

theorem connectorDefect?_eq_none_iff {ids : List BlockId} {c : Connector} :
    connectorDefect? ids root c = none ↔ (c.source ∈ ids ∧ c.dest ∈ ids) ∧ c.dest ≠ root := by
  unfold connectorDefect?
  simp only [Bool.not_eq_true', List.contains_eq_mem, decide_eq_false_iff_not, beq_iff_eq]
  split
  · next h => simp [h]
  · next h =>
    split
    · next h' => simp [h']
    · next h' =>
      rw [Decidable.not_not] at h h'
      simp [h, h']

/-- The search finds paths to all blocks just if there are any. -/
theorem unreached_eq_nil_iff {cs : List Connector} {ids : List BlockId}
    (hends : ∀ c ∈ cs, c.source ∈ ids) :
    unreached cs [root] (ids.filter (· != root)) = [] ↔ ∀ id ∈ ids, Reaches cs root id := by
  rw [List.eq_nil_iff_forall_not_mem]
  constructor
  · intro h id hid
    exact Classical.not_not.mp fun hnot => h id ((mem_unreached_iff hends).mpr ⟨hid, hnot⟩)
  · intro h id hid
    obtain ⟨hmem, hnot⟩ := (mem_unreached_iff hends).mp hid
    exact hnot (h id hmem)

/-- A draft has no defect just if it describes a sound graph. -/
theorem defect?_eq_none_iff :
    d.defect? root = none ↔ (⟨d.blocks, d.connectors, root⟩ : Graph).Sound := by
  constructor
  · intro h
    simp only [defect?] at h
    split at h
    · cases h
    next hnodup =>
    split at h
    · cases h
    next hroot =>
    split at h
    · cases h
    next hconnectors =>
    rw [List.findSome?_eq_none_iff] at hconnectors
    have hends := fun c hc => connectorDefect?_eq_none_iff.mp (hconnectors c hc)
    rw [Option.map_eq_none_iff, List.head?_eq_none_iff,
      unreached_eq_nil_iff fun c hc => (hends c hc).1.1] at h
    exact {
      ids_nodup := (firstRepeated?_eq_none_iff.mp hnodup).1
      root_mem := by simpa using hroot
      ends_mem := fun c hc => (hends c hc).1
      dest_ne_root := fun c hc => (hends c hc).2
      reached := h }
  · intro h
    have hnodup : firstRepeated? [] (d.blocks.map Block.id) = none :=
      firstRepeated?_eq_none_iff.mpr ⟨h.ids_nodup, by simp⟩
    have hconnectors :
        d.connectors.findSome? (connectorDefect? (d.blocks.map Block.id) root) = none := by
      rw [List.findSome?_eq_none_iff]
      exact fun c hc => connectorDefect?_eq_none_iff.mpr ⟨h.ends_mem c hc, h.dest_ne_root c hc⟩
    have hreached := (unreached_eq_nil_iff fun c hc => (h.ends_mem c hc).1).mpr h.reached
    have hroot : (d.blocks.map Block.id).contains root = true := by simpa using h.root_mem
    simp only [defect?, hnodup, hroot, hconnectors, Bool.not_true, Bool.false_eq_true, if_false]
    rw [hreached]
    rfl

/-- A draft is built just if it has a root and describes a sound graph, and that is what is built. -/
theorem build_eq_ok_iff {g : Graph} :
    d.build = .ok g ↔
      (d.root = some g.root ∧ d.blocks = g.blocks ∧ d.connectors = g.connectors) ∧ g.Sound := by
  obtain ⟨blocks, connectors, root⟩ := g
  unfold build
  constructor
  · intro h
    split at h
    · cases h
    next root' hroot =>
    split at h
    · cases h
    next hdefect =>
    cases h
    exact ⟨⟨hroot, rfl, rfl⟩, defect?_eq_none_iff.mp hdefect⟩
  · rintro ⟨⟨hroot, rfl, rfl⟩, hsound⟩
    simp only [hroot, defect?_eq_none_iff.mpr hsound]

end Draft

/-! ## Sequences of calls -/

/-- One call on a draft. -/
inductive DraftCall
  | addBlock (b : Block)
  | addBlocks (bs : List Block)
  | addConnectors (cs : List Connector)
  | setRoot (id : BlockId)

namespace DraftCall

/-- What the call makes of a draft. -/
def apply (d : Draft) : DraftCall → Draft
  | .addBlock b => d.addBlock b
  | .addBlocks bs => d.addBlocks bs
  | .addConnectors cs => d.addConnectors cs
  | .setRoot id => d.setRoot id

/-- The blocks that the call adds. -/
def blocks : DraftCall → List Block
  | .addBlock b => [b]
  | .addBlocks bs => bs
  | .addConnectors _ | .setRoot _ => []

/-- The connectors that the call adds. -/
def connectors : DraftCall → List Connector
  | .addConnectors cs => cs
  | .addBlock _ | .addBlocks _ | .setRoot _ => []

/-- The root that the call sets. -/
def root? : DraftCall → Option BlockId
  | .setRoot id => some id
  | .addBlock _ | .addBlocks _ | .addConnectors _ => none

end DraftCall

namespace Draft

/-- The draft that a sequence of calls makes of an empty one. -/
def ofCalls (calls : List DraftCall) : Draft := calls.foldl DraftCall.apply {}

/-- The last root that the calls set. -/
def lastRoot? (calls : List DraftCall) : Option BlockId := (calls.filterMap DraftCall.root?).getLast?

section Calls

variable {d : Draft} {call : DraftCall}

theorem blocks_apply : (call.apply d).blocks = d.blocks ++ call.blocks := by
  cases call <;> simp [DraftCall.apply, DraftCall.blocks, addBlock, addBlocks, addConnectors, setRoot]

theorem connectors_apply : (call.apply d).connectors = d.connectors ++ call.connectors := by
  cases call <;>
    simp [DraftCall.apply, DraftCall.connectors, addBlock, addBlocks, addConnectors, setRoot]

theorem root_apply : (call.apply d).root = call.root?.or d.root := by
  cases call <;> rfl

theorem blocks_foldl_apply (d : Draft) (calls : List DraftCall) :
    (calls.foldl DraftCall.apply d).blocks = d.blocks ++ calls.flatMap DraftCall.blocks := by
  induction calls generalizing d with
  | nil => simp
  | cons call rest ih =>
    rw [List.foldl_cons, ih, blocks_apply, List.flatMap_cons, List.append_assoc]

theorem connectors_foldl_apply (d : Draft) (calls : List DraftCall) :
    (calls.foldl DraftCall.apply d).connectors = d.connectors ++ calls.flatMap DraftCall.connectors := by
  induction calls generalizing d with
  | nil => simp
  | cons call rest ih =>
    rw [List.foldl_cons, ih, connectors_apply, List.flatMap_cons, List.append_assoc]

/-- A root that is set stays until another is. -/
theorem root_foldl_apply (d : Draft) (calls : List DraftCall) :
    (calls.foldl DraftCall.apply d).root = (lastRoot? calls).or d.root := by
  induction calls generalizing d with
  | nil => rfl
  | cons call rest ih =>
    rw [List.foldl_cons, ih, root_apply, ← Option.or_assoc]
    congr 1
    cases hroot : call.root? with
    | none => simp [lastRoot?, hroot]
    | some id =>
      rw [lastRoot?, lastRoot?, List.filterMap_cons_some hroot, List.getLast?_cons]
      cases (rest.filterMap DraftCall.root?).getLast? <;> rfl

/-- A sequence of calls leaves the blocks and the connectors that were added, in their order, and the
root that was set last. -/
theorem ofCalls_eq (calls : List DraftCall) :
    ofCalls calls = ⟨calls.flatMap DraftCall.blocks, calls.flatMap DraftCall.connectors,
      lastRoot? calls⟩ := by
  have hblocks := blocks_foldl_apply {} calls
  have hconnectors := connectors_foldl_apply {} calls
  have hroot := root_foldl_apply {} calls
  rw [List.nil_append] at hblocks hconnectors
  rw [Option.or_none] at hroot
  rw [ofCalls, ← hblocks, ← hconnectors, ← hroot]

end Calls

end Draft

open Draft

/-- Whatever calls are made on a draft, it is built just if a root was set and what was added is a sound
graph with the last root; and what is built are the blocks and the connectors added, in their order,
with that root. Building ends on every draft: each round of its search leaves fewer blocks unseen. -/
theorem builds_iff_sound (calls : List DraftCall) :
    ((∃ g, (ofCalls calls).build = .ok g) ↔
      ∃ root, lastRoot? calls = some root ∧
        (⟨calls.flatMap DraftCall.blocks, calls.flatMap DraftCall.connectors, root⟩ : Graph).Sound) ∧
    ∀ g, (ofCalls calls).build = .ok g ↔
      (lastRoot? calls = some g.root ∧ calls.flatMap DraftCall.blocks = g.blocks ∧
        calls.flatMap DraftCall.connectors = g.connectors) ∧ g.Sound := by
  have hbuild : ∀ g, (ofCalls calls).build = .ok g ↔ _ := fun g => build_eq_ok_iff
  simp only [ofCalls_eq] at hbuild ⊢
  refine ⟨?_, hbuild⟩
  constructor
  · rintro ⟨g, hg⟩
    obtain ⟨⟨hroot, hblocks, hconnectors⟩, hsound⟩ := (hbuild g).mp hg
    refine ⟨g.root, hroot, ?_⟩
    rw [hblocks, hconnectors]
    exact hsound
  · rintro ⟨root, hroot, hsound⟩
    exact ⟨_, (hbuild _).mpr ⟨⟨hroot, rfl, rfl⟩, hsound⟩⟩

end PolicyGraph
