import PolicyGraph.Proofs.Growth

/-!
# Ids that clash

Blocks are shared by id, outputs also by interface, and the two can disagree: a block that is made for an
interface may have an id that is taken. Then the older block stays and serves the interface, whatever it
is. `delivers_iff_no_clash` says that this is all that can go wrong: an output gets a block that writes to
its interface just if no block made for that interface has had such an id.
-/

namespace PolicyGraph

/-- Any block may be registered, but the block that is made for an interface writes to it. Its id may be
any. -/
def PoolCall.Fitting : PoolCall → Prop
  | .register _ => True
  | .output interface fresh => fresh.kind = .toDevice interface

namespace Pool

variable {p : Pool} {b fresh : Block} {id : BlockId} {interface : String} {calls : List PoolCall}

/-- The output gets a block that writes to its interface. -/
def Delivers (p : Pool) (interface : String) (fresh : Block) : Prop :=
  ∃ b q, p.output? interface fresh = some (b, q) ∧ b.kind = .toDevice interface

/-- The interface has no block yet, and the one that is made for it has an id that is taken. -/
def Clashes (p : Pool) (interface : String) (fresh : Block) : Prop :=
  p.sink? interface = none ∧ fresh.id ∈ p.blocks.map Block.id

/-- A block made for the interface in one of the calls had an id that was taken. -/
def Clashed (interface : String) (calls : List PoolCall) : Prop :=
  ∃ before fresh rest, calls = before ++ .output interface fresh :: rest ∧
    (ofCalls before).Clashes interface fresh

/-! ## Runs of calls -/

theorem not_clashed_nil : ¬ Clashed interface [] := by
  rintro ⟨before, fresh, rest, heq, -⟩
  exact absurd heq.symm (by simp)

theorem clashed_concat_iff {call : PoolCall} :
    Clashed interface (calls ++ [call]) ↔ Clashed interface calls ∨
      ∃ fresh, call = .output interface fresh ∧ (ofCalls calls).Clashes interface fresh := by
  constructor
  · rintro ⟨before, fresh, rest, heq, hclash⟩
    rcases List.eq_nil_or_concat rest with rfl | ⟨rest, last, rfl⟩
    · obtain ⟨rfl, hcall⟩ := List.append_inj' heq rfl
      exact .inr ⟨fresh, List.singleton_inj.mp hcall, hclash⟩
    · rw [List.concat_eq_append, ← List.cons_append, ← List.append_assoc] at heq
      exact .inl ⟨before, fresh, rest, (List.append_inj' heq rfl).1, hclash⟩
  · rintro (⟨before, fresh, rest, rfl, hclash⟩ | ⟨fresh, rfl, hclash⟩)
    · exact ⟨before, fresh, rest ++ [call], by simp, hclash⟩
    · exact ⟨calls, fresh, [], rfl, hclash⟩

/-! ## After a clash -/

theorem outputInterface?_eq_some_iff :
    b.outputInterface? = some interface ↔ b.kind = .toDevice interface := by
  unfold Block.outputInterface?
  cases b.kind <;> simp

/-- In a clash the output gets the block that has the id. It does not write to the interface, for then it
would have served it. -/
theorem Consistent.exists_of_clashes (h : p.Consistent) (hclash : p.Clashes interface fresh) :
    ∃ b q, p.output? interface fresh = some (b, q) ∧ b.kind ≠ .toDevice interface := by
  obtain ⟨hsink, hid⟩ := hclash
  obtain ⟨b, hb, hbid⟩ := List.mem_map.mp hid
  refine ⟨b, p.serve interface fresh.id, ?_, fun hkind => ?_⟩
  · have hblock : (p.serve interface fresh.id).block? fresh.id = some b :=
      (h.serve hid).block?_eq_some_iff.mpr ⟨by rwa [blocks_serve], hbid⟩
    rw [h.output?_eq, output_of_none hsink, register_old h.indexed hid]
    simp only [hblock, Option.map_some]
  · have hserved := h.served b hb interface (outputInterface?_eq_some_iff.mpr hkind)
    rw [hsink] at hserved
    cases hserved

/-- The interface has its wrong block for good. -/
theorem not_delivers_of_clashed (hclash : Clashed interface calls) (fresh : Block) :
    ¬ (ofCalls calls).Delivers interface fresh := by
  obtain ⟨before, made, rest, rfl, hclash⟩ := hclash
  have h := consistent_ofCalls before
  obtain ⟨b, q, hout, hkind⟩ := h.exists_of_clashes hclash
  have hq : q.after rest = ofCalls (before ++ .output interface made :: rest) := by
    obtain ⟨b', heq, -⟩ := h.exists_output?_eq interface made
    rw [hout, Option.some.injEq, Prod.mk.injEq] at heq
    rw [heq.2, ← after_ofCalls]
    rfl
  obtain ⟨hblock, hgiven, -⟩ := h.keepsServing_output hout rest
  rw [hq] at hblock hgiven
  rintro ⟨b', q', hout', hkind'⟩
  rw [(consistent_ofCalls _).output?_eq, hgiven fresh, hblock, Option.map_some, Option.some.injEq,
    Prod.mk.injEq] at hout'
  exact hkind (hout'.1 ▸ hkind')

/-! ## Without a clash -/

/-- A block that comes to serve an interface when it is registered writes to it. -/
theorem writes_of_sink?_register (hp : p.Indexed) (hnone : p.sink? interface = none)
    (hsome : (p.register b).sink? interface = some id) :
    b ∈ (p.register b).blocks ∧ b.id = id ∧ b.kind = .toDevice interface := by
  have hne : p.sink? interface ≠ some id := by simp [hnone]
  by_cases hb : b.id ∈ p.blocks.map Block.id
  · rw [register_old hp hb] at hsome
    exact absurd hsome hne
  · rw [sink?_register_new hp hb] at hsome
    split at hsome
    · next hi =>
      rw [hnone, Option.getD_none, Option.some.injEq] at hsome
      refine ⟨?_, hsome, outputInterface?_eq_some_iff.mp hi⟩
      rw [blocks_register_new hp hb]
      exact List.mem_append_right _ List.mem_cons_self
    · exact absurd hsome hne

/-- If a call lets a block serve an interface, the block writes to it or the call was a clash. -/
theorem writes_or_clashes (hp : p.Indexed) {call : PoolCall} (hfit : call.Fitting)
    (hnone : p.sink? interface = none) (hsome : (call.apply p).sink? interface = some id) :
    (∃ b ∈ (call.apply p).blocks, b.id = id ∧ b.kind = .toDevice interface) ∨
      ∃ fresh, call = .output interface fresh ∧ p.Clashes interface fresh := by
  cases call with
  | register b =>
    obtain ⟨hmem, hid, hkind⟩ := writes_of_sink?_register hp hnone hsome
    exact .inl ⟨b, hmem, hid, hkind⟩
  | output other fresh =>
    change (p.output other fresh).2.sink? interface = some id at hsome
    show (∃ b ∈ (p.output other fresh).2.blocks, _) ∨ _
    by_cases hi : interface = other
    · subst hi
      by_cases hclash : fresh.id ∈ p.blocks.map Block.id
      · exact .inr ⟨fresh, rfl, hnone, hclash⟩
      · rw [sink?_output hp, output_of_none hnone, Option.some.injEq] at hsome
        refine .inl ⟨fresh, ?_, hsome, hfit⟩
        rw [output_of_none hnone, blocks_serve, blocks_register_new hp hclash]
        exact List.mem_append_right _ List.mem_cons_self
    · cases hother : p.sink? other with
      | some old =>
        rw [output_of_sink hother, hnone] at hsome
        cases hsome
      | none =>
        rw [output_of_none hother, sink?_serve, if_neg hi] at hsome
        obtain ⟨hmem, hid, hkind⟩ := writes_of_sink?_register hp hnone hsome
        rw [output_of_none hother, blocks_serve]
        exact .inl ⟨fresh, hmem, hid, hkind⟩

/-- What serves an interface writes to it, unless a block made for the interface clashed. -/
theorem writes_or_clashed (hfit : ∀ call ∈ calls, call.Fitting)
    (hsink : (ofCalls calls).sink? interface = some id) :
    (∃ b ∈ (ofCalls calls).blocks, b.id = id ∧ b.kind = .toDevice interface) ∨
      Clashed interface calls := by
  induction calls using List.reverseRecOn with
  | nil => cases hsink
  | append_singleton calls call ih =>
    have h := consistent_ofCalls calls
    rw [ofCalls_concat] at hsink ⊢
    rw [clashed_concat_iff]
    cases hold : (ofCalls calls).sink? interface with
    | none =>
      rcases writes_or_clashes h.indexed (hfit call (by simp)) hold hsink with hw | hc
      · exact .inl hw
      · exact .inr (.inr hc)
    | some old =>
      -- The interface had its block already, and keeps it.
      rw [sink?_apply_of_some h.indexed hold, Option.some.injEq] at hsink
      subst hsink
      rcases ih (fun c hc => hfit c (List.mem_append_left _ hc)) hold with ⟨b, hb, hw⟩ | hc
      · obtain ⟨added, hblocks, -⟩ := blocks_apply h.indexed call
        refine .inl ⟨b, ?_, hw⟩
        rw [hblocks]
        exact List.mem_append_left _ hb
      · exact .inr (.inl hc)

/-- The output is one more call of the run, which ends with its block serving the interface. -/
theorem delivers_of_not_clashed (hfit : ∀ call ∈ calls, call.Fitting)
    (hfresh : fresh.kind = .toDevice interface)
    (hfree : ¬ Clashed interface (calls ++ [.output interface fresh])) :
    (ofCalls calls).Delivers interface fresh := by
  have h := consistent_ofCalls calls
  obtain ⟨b, hout, hid⟩ := h.exists_output?_eq interface fresh
  have hfit' : ∀ call ∈ calls ++ [.output interface fresh], call.Fitting := by
    intro call hcall
    rcases List.mem_append.mp hcall with hcall | hlast
    · exact hfit call hcall
    · rw [List.mem_singleton.mp hlast]
      exact hfresh
  have hsink : (ofCalls (calls ++ [.output interface fresh])).sink? interface = some b.id := by
    rw [ofCalls_concat, hid]
    exact sink?_output h.indexed interface fresh
  rcases writes_or_clashed hfit' hsink with ⟨b', hb', hid', hkind⟩ | hclash
  · have hblock := (consistent_ofCalls _).block?_eq_some_iff.mpr ⟨hb', hid'⟩
    rw [ofCalls_concat] at hblock
    change ((ofCalls calls).output interface fresh).2.block? b.id = some b' at hblock
    refine ⟨b', ((ofCalls calls).output interface fresh).2, ?_, hkind⟩
    rw [h.output?_eq, ← hid, hblock, Option.map_some]
  · exact absurd hclash hfree

end Pool

open Pool

/-- Let every block that is made for an interface write to it. Then an output gets a block that writes to
its interface just if no block made for that interface, by this call or an earlier one, had an id that was
taken. Otherwise the interface is served by the block that had the id first. -/
theorem delivers_iff_no_clash {calls : List PoolCall} {interface : String} {fresh : Block}
    (hfit : ∀ call ∈ calls, call.Fitting) (hfresh : fresh.kind = .toDevice interface) :
    (ofCalls calls).Delivers interface fresh ↔
      ¬ Clashed interface (calls ++ [.output interface fresh]) := by
  refine ⟨fun hdelivers hclashed => ?_, delivers_of_not_clashed hfit hfresh⟩
  rcases clashed_concat_iff.mp hclashed with hbefore | ⟨_, hcall, hnow⟩
  · exact not_delivers_of_clashed hbefore fresh hdelivers
  · cases hcall
    obtain ⟨b, q, hout, hkind⟩ := (consistent_ofCalls calls).exists_of_clashes hnow
    obtain ⟨b', q', hout', hkind'⟩ := hdelivers
    rw [hout, Option.some.injEq, Prod.mk.injEq] at hout'
    exact hkind (hout'.1 ▸ hkind')

/-- A pool with a block that is no output. -/
def alertCalls : List PoolCall := [.register ⟨"T", .alert "seen"⟩]

theorem alertCalls_free_id_delivered :
    ((∀ call ∈ alertCalls, call.Fitting) ∧
      (⟨"U", .toDevice "eth1"⟩ : Block).kind = .toDevice "eth1") ∧
      (ofCalls alertCalls).Delivers "eth1" ⟨"U", .toDevice "eth1"⟩ := by
  have hfit : ∀ call ∈ alertCalls, call.Fitting := by simp [alertCalls, PoolCall.Fitting]
  refine ⟨⟨hfit, rfl⟩, (delivers_iff_no_clash hfit rfl).mpr ?_⟩
  rw [clashed_concat_iff, alertCalls, ← List.nil_append [_], clashed_concat_iff]
  rintro ((hnil | ⟨_, hcall, -⟩) | ⟨_, hcall, -, htaken⟩)
  · exact not_clashed_nil hnil
  · cases hcall
  · cases hcall
    exact absurd htaken (by decide)

/-- The interface is served by the alert, which has the id that its output block was to have. -/
theorem alertCalls_taken_id_not_delivered :
    (∀ call ∈ alertCalls, call.Fitting) ∧
      (∃ q, (ofCalls alertCalls).output? "eth1" ⟨"T", .toDevice "eth1"⟩ =
        some (⟨"T", .alert "seen"⟩, q)) ∧
      ¬ (ofCalls alertCalls).Delivers "eth1" ⟨"T", .toDevice "eth1"⟩ := by
  have hgiven : (ofCalls alertCalls).output? "eth1" ⟨"T", .toDevice "eth1"⟩ =
      some (⟨"T", .alert "seen"⟩, ((ofCalls alertCalls).serve "eth1" "T")) := by decide
  refine ⟨by simp [alertCalls, PoolCall.Fitting], ⟨_, hgiven⟩, ?_⟩
  rintro ⟨b, q, hout, hkind⟩
  rw [hgiven, Option.some.injEq, Prod.mk.injEq] at hout
  rw [← hout.1] at hkind
  cases hkind

end PolicyGraph
