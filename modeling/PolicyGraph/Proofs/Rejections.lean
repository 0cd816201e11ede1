import PolicyGraph.Proofs.Draft

/-!
# Why drafts are rejected

A draft may have many defects, of which one is reported. `FirstDefect` says which one by the places at
which blocks and connectors were added and by the paths that there are, with no check and no search in
it, and `rejected_iff_firstDefect` that this is the one, for every sequence of calls.
-/

namespace PolicyGraph

/-! ## The defect that is reported -/

/-- A connector that joins two blocks and does not end at the root. -/
def Connector.Fits (ids : List BlockId) (root : BlockId) (c : Connector) : Prop :=
  (c.source ∈ ids ∧ c.dest ∈ ids) ∧ c.dest ≠ root

/-- What is reported of a connector, with its message. -/
inductive ConnectorDefect (ids : List BlockId) (root : BlockId) (c : Connector) :
    Defect → String → Prop
  | unknownSource : c.source ∉ ids →
      ConnectorDefect ids root c (.unknownBlock c.source) ("Unknown block: " ++ c.source)
  | unknownDest : c.source ∈ ids → c.dest ∉ ids →
      ConnectorDefect ids root c (.unknownBlock c.dest) ("Unknown block: " ++ c.dest)
  | rootInbound : c.source ∈ ids → c.dest ∈ ids → c.dest = root →
      ConnectorDefect ids root c (.rootInbound root c.source)
        ("Invalid graph: root " ++ root ++ " has inbound connector from " ++ c.source)

/-- The first defect among the ids of the blocks, the connectors and the root of a draft, with its
message. In this order: a root was set; no id occurs before, from the first block on; the root is a
block; each connector fits, from the first one on; and a path leads from the root to each block, again
from the first one on. -/
inductive FirstDefect (ids : List BlockId) (connectors : List Connector) :
    Option BlockId → Defect → String → Prop
  | noRoot : FirstDefect ids connectors none .noRoot "Invalid graph: no root block"
  | duplicateBlock {root id : BlockId} {before after : List BlockId} :
      ids = before ++ id :: after → before.Nodup → id ∈ before →
      FirstDefect ids connectors (some root) (.duplicateBlock id) ("Duplicate block: " ++ id)
  | unknownRoot {root : BlockId} : ids.Nodup → root ∉ ids →
      FirstDefect ids connectors (some root) (.unknownBlock root) ("Unknown block: " ++ root)
  | connector {root : BlockId} {before after : List Connector} {c : Connector} {defect : Defect}
      {message : String} :
      ids.Nodup → root ∈ ids → connectors = before ++ c :: after → (∀ e ∈ before, e.Fits ids root) →
      ConnectorDefect ids root c defect message →
      FirstDefect ids connectors (some root) defect message
  | unreachable {root id : BlockId} {before after : List BlockId} :
      ids.Nodup → root ∈ ids → (∀ c ∈ connectors, c.Fits ids root) → ids = before ++ id :: after →
      (∀ e ∈ before, Reaches connectors root e) → ¬ Reaches connectors root id →
      FirstDefect ids connectors (some root) (.unreachable id root)
        ("Invalid graph: block " ++ id ++ " is not reachable from root " ++ root)

namespace RejectionLemmas

variable {ids : List BlockId} {cs : List Connector} {root id : BlockId} {d : Draft} {defect : Defect}
  {message : String}

/-! ## The single checks -/

theorem firstRepeated?_cons_of_not_mem {seen as : List BlockId} {a : BlockId} (ha : a ∉ seen) :
    firstRepeated? seen (a :: as) = firstRepeated? (a :: seen) as := by
  rw [firstRepeated?, if_neg ha]

theorem exists_of_firstRepeated? {seen as : List BlockId} (h : firstRepeated? seen as = some id) :
    ∃ before after, as = before ++ id :: after ∧ firstRepeated? seen before = none ∧
      (id ∈ before ∨ id ∈ seen) := by
  induction as generalizing seen with
  | nil => cases h
  | cons a as ih =>
    by_cases ha : a ∈ seen
    · rw [firstRepeated?, if_pos ha] at h
      cases h
      exact ⟨[], as, rfl, rfl, .inr ha⟩
    · rw [firstRepeated?_cons_of_not_mem ha] at h
      obtain ⟨before, after, rfl, hnone, hmem⟩ := ih h
      refine ⟨a :: before, after, rfl, (firstRepeated?_cons_of_not_mem ha).trans hnone, ?_⟩
      rw [List.mem_cons, or_assoc, or_left_comm, ← List.mem_cons]
      exact hmem

theorem firstRepeated?_append_cons {seen before after : List BlockId}
    (hnone : firstRepeated? seen before = none) (hmem : id ∈ before ∨ id ∈ seen) :
    firstRepeated? seen (before ++ id :: after) = some id := by
  induction before generalizing seen with
  | nil =>
    have hseen : id ∈ seen := by simpa using hmem
    rw [List.nil_append, firstRepeated?, if_pos hseen]
  | cons b before ih =>
    by_cases hb : b ∈ seen
    · rw [firstRepeated?, if_pos hb] at hnone
      cases hnone
    · rw [firstRepeated?_cons_of_not_mem hb] at hnone
      rw [List.cons_append, firstRepeated?_cons_of_not_mem hb]
      refine ih hnone ?_
      rw [List.mem_cons, or_left_comm, ← or_assoc, ← List.mem_cons]
      exact hmem

/-- The first repeated id is the one that comes after distinct ids and is one of them. -/
theorem firstRepeated?_eq_some_iff :
    firstRepeated? [] ids = some id ↔
      ∃ before after, ids = before ++ id :: after ∧ before.Nodup ∧ id ∈ before := by
  constructor
  · intro h
    obtain ⟨before, after, hsplit, hnone, hmem⟩ := exists_of_firstRepeated? h
    exact ⟨before, after, hsplit, (firstRepeated?_eq_none_iff.mp hnone).1, by simpa using hmem⟩
  · rintro ⟨before, after, rfl, hnodup, hmem⟩
    exact firstRepeated?_append_cons (firstRepeated?_eq_none_iff.mpr ⟨hnodup, by simp⟩) (.inl hmem)

theorem connectorDefect?_eq_some_iff {c : Connector} :
    Draft.connectorDefect? ids root c = some defect ∧ defect.message = message ↔
      ConnectorDefect ids root c defect message := by
  simp only [Draft.connectorDefect?, Bool.not_eq_true', List.contains_eq_mem, decide_eq_false_iff_not,
    beq_iff_eq]
  constructor
  · rintro ⟨h, rfl⟩
    split at h
    · next hsource =>
      cases h
      exact .unknownSource hsource
    next hsource =>
    rw [Decidable.not_not] at hsource
    split at h
    · next hdest =>
      cases h
      exact .unknownDest hsource hdest
    next hdest =>
    rw [Decidable.not_not] at hdest
    split at h
    · next hroot =>
      cases h
      exact .rootInbound hsource hdest hroot
    · cases h
  · intro h
    cases h with
    | unknownSource hsource => exact ⟨if_pos hsource, rfl⟩
    | unknownDest hsource hdest =>
      refine ⟨?_, rfl⟩
      rw [if_neg (not_not_intro hsource), if_pos hdest]
    | rootInbound hsource hdest hroot =>
      refine ⟨?_, rfl⟩
      rw [if_neg (not_not_intro hsource), if_neg (not_not_intro hdest), if_pos hroot]

/-! ## The search -/

/-- What the search misses stands in the order in which it was looked for. -/
theorem unreached_eq_filter_mem (frontier unseen : List BlockId) :
    unreached cs frontier unseen = unseen.filter (unreached cs frontier unseen).contains := by
  fun_induction unreached cs frontier unseen with
  | case1 frontier unseen next left _ ih =>
    simp only [List.unattach_filter, List.unattach_attach] at ih
    have hleft : ∀ id ∈ unreached cs (unseen.filter next.contains) left, id ∉ next := fun id hid =>
      (mem_removeAll.mp (unreached_subset hid)).2
    generalize unreached cs (unseen.filter next.contains) left = missed at ih hleft ⊢
    calc missed
      _ = left.filter missed.contains := ih
      _ = unseen.filter fun id => missed.contains id && !next.elem id := List.filter_filter
      _ = unseen.filter missed.contains := by
        refine List.filter_congr fun id _ => ?_
        rw [Bool.and_eq_left_iff_imp]
        intro hid
        simpa using hleft id (List.contains_iff_mem.mp hid)
  | case2 frontier unseen =>
    exact (List.filter_eq_self.mpr fun _ hid => List.contains_iff_mem.mpr hid).symm

open Classical in
/-- The search from the root misses the ids that no path leads to, and keeps them in their order. -/
theorem unreached_eq_filter (hends : ∀ c ∈ cs, c.source ∈ ids) :
    unreached cs [root] (ids.filter (· != root)) = ids.filter fun id => ¬ Reaches cs root id := by
  rw [unreached_eq_filter_mem, List.filter_filter]
  refine List.filter_congr fun id hid => ?_
  rw [Bool.eq_iff_iff, Bool.and_eq_true, List.contains_iff_mem, mem_unreached_iff hends,
    decide_eq_true_iff, bne_iff_ne]
  constructor
  · exact fun h => h.1.2
  · intro hnot
    refine ⟨⟨hid, hnot⟩, ?_⟩
    rintro rfl
    exact hnot .refl

/-- The first id that the search misses is the first one that no path leads to. -/
theorem head?_unreached (hends : ∀ c ∈ cs, c.source ∈ ids) :
    (unreached cs [root] (ids.filter (· != root))).head? = some id ↔
      ∃ before after, ids = before ++ id :: after ∧ (∀ e ∈ before, Reaches cs root e) ∧
        ¬ Reaches cs root id := by
  rw [unreached_eq_filter hends, List.head?_filter, List.find?_eq_some_iff_append]
  simp only [decide_eq_true_iff, Bool.not_eq_true', decide_eq_false_iff_not, Classical.not_not]
  constructor
  · rintro ⟨hnot, before, after, hsplit, hbefore⟩
    exact ⟨before, after, hsplit, hbefore, hnot⟩
  · rintro ⟨before, after, hsplit, hbefore, hnot⟩
    exact ⟨hnot, before, after, hsplit, hbefore⟩

/-! ## All checks -/

theorem firstDefect_of_defect? (h : d.defect? root = some defect) :
    FirstDefect (d.blocks.map Block.id) d.connectors (some root) defect defect.message := by
  simp only [Draft.defect?] at h
  split at h
  · next id hrepeated =>
    cases h
    obtain ⟨before, after, hsplit, hnodup, hmem⟩ := firstRepeated?_eq_some_iff.mp hrepeated
    exact .duplicateBlock hsplit hnodup hmem
  next hfresh =>
  have hnodup := (firstRepeated?_eq_none_iff.mp hfresh).1
  split at h
  · next hroot =>
    cases h
    exact .unknownRoot hnodup (by simpa using hroot)
  next hroot =>
  have hmem : root ∈ d.blocks.map Block.id := by simpa using hroot
  split at h
  · next hconnector =>
    cases h
    obtain ⟨before, c, after, hsplit, hdefect, hbefore⟩ := List.findSome?_eq_some_iff.mp hconnector
    exact .connector hnodup hmem hsplit
      (fun e he => Draft.connectorDefect?_eq_none_iff.mp (hbefore e he))
      (connectorDefect?_eq_some_iff.mp ⟨hdefect, rfl⟩)
  next hconnectors =>
  rw [List.findSome?_eq_none_iff] at hconnectors
  have hfits := fun c hc => Draft.connectorDefect?_eq_none_iff.mp (hconnectors c hc)
  obtain ⟨id, hhead, rfl⟩ := Option.map_eq_some_iff.mp h
  obtain ⟨before, after, hsplit, hbefore, hnot⟩ :=
    (head?_unreached fun c hc => (hfits c hc).1.1).mp hhead
  exact .unreachable hnodup hmem hfits hsplit hbefore hnot

theorem defect?_of_firstDefect
    (h : FirstDefect (d.blocks.map Block.id) d.connectors (some root) defect message) :
    d.defect? root = some defect ∧ defect.message = message := by
  have hfresh : (d.blocks.map Block.id).Nodup → firstRepeated? [] (d.blocks.map Block.id) = none :=
    fun hnodup => firstRepeated?_eq_none_iff.mpr ⟨hnodup, by simp⟩
  cases h with
  | duplicateBlock hsplit hnodup hmem =>
    refine ⟨?_, rfl⟩
    simp only [Draft.defect?, firstRepeated?_eq_some_iff.mpr ⟨_, _, hsplit, hnodup, hmem⟩]
  | unknownRoot hnodup hroot =>
    refine ⟨?_, rfl⟩
    simp [Draft.defect?, hfresh hnodup, hroot]
  | connector hnodup hroot hsplit hbefore hdefect =>
    obtain ⟨hdefect, hmessage⟩ := connectorDefect?_eq_some_iff.mpr hdefect
    refine ⟨?_, hmessage⟩
    have hfound : d.connectors.findSome? (Draft.connectorDefect? (d.blocks.map Block.id) root) =
        some defect :=
      List.findSome?_eq_some_iff.mpr ⟨_, _, _, hsplit, hdefect, fun e he =>
        Draft.connectorDefect?_eq_none_iff.mpr (hbefore e he)⟩
    have hroot : (d.blocks.map Block.id).contains root = true := by simpa using hroot
    simp only [Draft.defect?, hfresh hnodup, hroot, hfound, Bool.not_true, Bool.false_eq_true, if_false]
  | unreachable hnodup hroot hfits hsplit hbefore hnot =>
    refine ⟨?_, rfl⟩
    have hnone : d.connectors.findSome? (Draft.connectorDefect? (d.blocks.map Block.id) root) = none :=
      List.findSome?_eq_none_iff.mpr fun c hc => Draft.connectorDefect?_eq_none_iff.mpr (hfits c hc)
    have hhead := (head?_unreached fun c hc => (hfits c hc).1.1).mpr ⟨_, _, hsplit, hbefore, hnot⟩
    have hroot : (d.blocks.map Block.id).contains root = true := by simpa using hroot
    simp only [Draft.defect?, hfresh hnodup, hroot, hnone, hhead, Bool.not_true, Bool.false_eq_true,
      if_false, Option.map_some]

theorem build_eq_error_iff :
    d.build = .error defect ∧ defect.message = message ↔
      FirstDefect (d.blocks.map Block.id) d.connectors d.root defect message := by
  constructor
  · rintro ⟨h, rfl⟩
    unfold Draft.build at h
    split at h
    · next hroot =>
      cases h
      rw [hroot]
      exact .noRoot
    next root hroot =>
    split at h
    · next hdefect =>
      cases h
      rw [hroot]
      exact firstDefect_of_defect? hdefect
    · cases h
  · intro h
    unfold Draft.build
    cases hroot : d.root with
    | none =>
      rw [hroot] at h
      cases h
      exact ⟨rfl, rfl⟩
    | some root =>
      rw [hroot] at h
      obtain ⟨hdefect, hmessage⟩ := defect?_of_firstDefect h
      exact ⟨by simp only [hdefect], hmessage⟩

end RejectionLemmas

open Draft

/-- Whatever calls are made on a draft, it is rejected for the first defect of what they add and set, and
with the message for that defect. -/
theorem rejected_iff_firstDefect (calls : List DraftCall) (defect : Defect) (message : String) :
    ((ofCalls calls).build = .error defect ∧ defect.message = message) ↔
      FirstDefect ((calls.flatMap DraftCall.blocks).map Block.id)
        (calls.flatMap DraftCall.connectors) (lastRoot? calls) defect message := by
  rw [RejectionLemmas.build_eq_error_iff, ofCalls_eq]

end PolicyGraph
