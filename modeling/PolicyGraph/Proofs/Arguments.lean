import PolicyGraph.Proofs.Grammar
import PolicyGraph.Proofs.Readers

/-!
# The arguments of the program

What the program reads from its arguments is found by a scan that gives the options their values one by
one. The scan follows the grammar (`Options.grammatical_parse`).
-/

namespace PolicyGraph.CommandLine

/-! ## Arguments by their spelling -/

namespace Spelling

variable {k : Key} {v a : String} {cs : List Char} {c : Char}

theorem shortKey?_eq_some_iff : shortKey? c = some k ↔ k.short? = some c := by
  constructor
  · intro h
    unfold shortKey? at h
    split at h <;> cases h <;> rfl
  · intro h
    cases k <;> cases h <;> rfl

theorem longKey?_eq_some_iff {name : String} : longKey? name = some k ↔ name = k.long := by
  constructor
  · intro h
    unfold longKey? at h
    split at h <;> cases h <;> rfl
  · rintro rfl
    cases k <;> rfl

/-- What follows a long name: a value after an equals sign, or nothing. -/
def tail (attached : Option String) : List Char :=
  attached.elim [] fun v => '=' :: v.toList

/-- Characters without an equals sign, as names are. -/
def IsName (cs : List Char) : Prop := ∀ c ∈ cs, (c != '=') = true

/-- Every text is a name and what follows it. -/
theorem exists_name_tail (cs : List Char) :
    ∃ name attached, IsName name ∧ cs = name ++ tail attached := by
  have hname : IsName (cs.takeWhile (· != '=')) := fun c hc =>
    List.all_eq_true.mp List.all_takeWhile c hc
  have hcs : cs.takeWhile (· != '=') ++ cs.dropWhile (· != '=') = cs :=
    List.takeWhile_append_dropWhile
  cases hdrop : cs.dropWhile (· != '=') with
  | nil =>
    rw [hdrop] at hcs
    exact ⟨_, none, hname, hcs.symm⟩
  | cons c value =>
    have hc := List.head?_dropWhile_not (· != '=') cs
    simp only [hdrop, List.head?_cons, bne_eq_false_iff_eq] at hc
    rw [hdrop, hc] at hcs
    refine ⟨_, some (String.ofList value), hname, ?_⟩
    rw [tail, Option.elim_some, String.toList_ofList]
    exact hcs.symm

theorem ofLong_name_tail {name : List Char} (hname : IsName name) {attached attached' : Option String} :
    ofLong (name ++ tail attached) = .option k attached' ↔
      name = k.long.toList ∧ attached = attached' := by
  have htake : (name ++ tail attached).takeWhile (· != '=') = name := by
    rw [List.takeWhile_append_of_pos hname]
    cases attached <;> simp [tail]
  have hdrop : (name ++ tail attached).dropWhile (· != '=') = tail attached := by
    rw [List.dropWhile_append_of_pos hname]
    cases attached <;> simp [tail]
  have hlong : name = k.long.toList ↔ longKey? (String.ofList name) = some k := by
    rw [longKey?_eq_some_iff, ← String.toList_inj, String.toList_ofList]
  unfold ofLong
  rw [htake, hdrop, hlong]
  cases attached with
  | none =>
    simp only [tail, Option.elim_none]
    cases longKey? (String.ofList name) with
    | some key => simp
    | none => simp only [reduceCtorEq, false_and, iff_false]; split <;> simp; split <;> simp
  | some v =>
    simp only [tail, Option.elim_some, String.ofList_toList]
    cases longKey? (String.ofList name) with
    | some key => simp
    | none => simp

theorem ofLong_eq_option_iff {attached : Option String} :
    ofLong cs = .option k attached ↔ cs = k.long.toList ++ tail attached := by
  constructor
  · intro h
    obtain ⟨name, attached', hname, rfl⟩ := exists_name_tail cs
    obtain ⟨rfl, rfl⟩ := (ofLong_name_tail hname).mp h
    rfl
  · rintro rfl
    have hname : IsName k.long.toList := by
      cases k <;> simp [IsName, Key.long]
    exact (ofLong_name_tail hname).mpr ⟨rfl, rfl⟩

theorem shortValue?_eq_none_iff : shortValue? cs = none ↔ cs = [] := by
  unfold shortValue?
  split
  · simp
  · simp
  · next hne _ => simpa using hne

theorem shortValue?_eq_some_iff :
    shortValue? cs = some v ↔
      cs = '=' :: v.toList ∨ cs = v.toList ∧ ∃ d ds, v.toList = d :: ds ∧ d ≠ '=' := by
  have hof : ∀ cs, some (String.ofList cs) = some v ↔ cs = v.toList := by
    intro cs
    rw [Option.some.injEq, ← String.toList_inj, String.toList_ofList]
  unfold shortValue?
  split
  · simp only [reduceCtorEq, false_or, false_iff]
    rintro ⟨hv, d, ds, hd, -⟩
    exact List.cons_ne_nil d ds (hd.symm.trans hv.symm)
  · next value =>
    rw [hof, List.cons.injEq]
    refine ⟨fun h => .inl ⟨rfl, h⟩, ?_⟩
    rintro (⟨-, h⟩ | ⟨hv, d, ds, hd, hne⟩)
    · exact h
    · rw [hd] at hv
      exact absurd (List.cons.inj hv).1.symm hne
  · next hne hequals =>
    rw [hof]
    constructor
    · intro hv
      obtain ⟨d, ds, rfl⟩ := List.exists_cons_of_ne_nil hne
      refine .inr ⟨hv, d, ds, hv.symm, ?_⟩
      rintro rfl
      exact hequals ds rfl
    · rintro (h | ⟨h, -⟩)
      · exact absurd h (hequals _)
      · exact h

theorem short?_ne_dash (k : Key) : k.short? ≠ some '-' := by
  cases k <;> decide

theorem ofArgument_eq_option_iff {attached : Option String} :
    ofArgument a = .option k attached ↔
      a.toList = '-' :: '-' :: (k.long.toList ++ tail attached) ∨
      ∃ c cs, k.short? = some c ∧ a.toList = '-' :: c :: cs ∧ shortValue? cs = attached := by
  unfold ofArgument
  split
  · next cs ha =>
    rw [ha, ofLong_eq_option_iff]
    simp only [List.cons.injEq, true_and]
    refine ⟨.inl, ?_⟩
    rintro (h | ⟨c, cs', hc, ⟨rfl, -⟩, -⟩)
    · exact h
    · exact absurd hc (short?_ne_dash k)
  · next c cs hdash ha =>
    have hc : c ≠ '-' := hdash
    rw [ha]
    simp only [List.cons.injEq, true_and, hc, false_and, false_or]
    cases hkey : shortKey? c with
    | some key =>
      simp only [option.injEq]
      constructor
      · rintro ⟨rfl, rfl⟩
        exact ⟨c, cs, shortKey?_eq_some_iff.mp hkey, ⟨rfl, rfl⟩, rfl⟩
      · rintro ⟨_, _, hc', ⟨rfl, rfl⟩, rfl⟩
        rw [shortKey?_eq_some_iff.mpr hc'] at hkey
        exact ⟨(Option.some.inj hkey).symm, rfl⟩
    | none =>
      have hnone : k.short? ≠ some c := by
        rw [ne_eq, ← shortKey?_eq_some_iff, hkey]
        exact nofun
      refine ⟨fun h => ?_, ?_⟩
      · simp only at h
        split at h
        · cases h
        · split at h <;> cases h
      · rintro ⟨_, _, hc', ⟨rfl, rfl⟩, -⟩
        exact absurd hc' hnone
  · next hlong hshort =>
    refine ⟨fun h => ?_, ?_⟩
    · cases h
    · rintro (h | ⟨c, cs, -, h, -⟩)
      · exact absurd h (hlong _)
      · exact absurd h (hshort _ _)

theorem ofArgument_eq_bare_iff : ofArgument a = .option k none ↔ Bare k a := by
  rw [ofArgument_eq_option_iff]
  constructor
  · rintro (h | ⟨c, cs, hc, ha, hcs⟩)
    · obtain rfl : a = "--" ++ k.long := by
        rw [← String.toList_inj, h]
        simp [tail]
      exact .long
    · obtain rfl : a = "-".push c := by
        rw [← String.toList_inj, ha, shortValue?_eq_none_iff.mp hcs]
        simp
      exact .short hc
  · rintro (_ | hc)
    · exact .inl (by simp [tail])
    · exact .inr ⟨_, [], hc, by simp, rfl⟩

theorem ofArgument_eq_attached_iff : ofArgument a = .option k (some v) ↔ Attached k v a := by
  rw [ofArgument_eq_option_iff]
  constructor
  · rintro (h | ⟨c, cs, hc, ha, hcs⟩)
    · obtain rfl : a = "--" ++ k.long ++ "=" ++ v := by
        rw [← String.toList_inj, h]
        simp [tail]
      exact .long
    · rcases shortValue?_eq_some_iff.mp hcs with rfl | ⟨rfl, d, ds, hv, hd⟩
      · obtain rfl : a = "-".push c ++ "=" ++ v := by
          rw [← String.toList_inj, ha]
          simp
        exact .shortEquals hc
      · obtain rfl : a = "-".push c ++ v := by
          rw [← String.toList_inj, ha]
          simp
        exact .short hc hv hd
  · rintro (_ | hc | ⟨hc, hv, hd⟩)
    · exact .inl (by simp [tail])
    · exact .inr ⟨_, '=' :: v.toList, hc, by simp, shortValue?_eq_some_iff.mpr (.inl rfl)⟩
    · exact .inr ⟨_, v.toList, hc, by simp, shortValue?_eq_some_iff.mpr (.inr ⟨rfl, _, _, hv, hd⟩)⟩

end Spelling

theorem canBeValue_iff {v : String} : Options.canBeValue v = true ↔ Separate v := by
  unfold Options.canBeValue Separate
  rw [Bool.or_eq_true, beq_iff_eq, Bool.not_eq_true', ← Bool.not_eq_true]
  refine or_congr_right (not_congr ?_)
  rw [String.startsWith_string_iff]
  exact List.singleton_prefix_iff_head?_eq_some

/-! ## Reading arguments -/

namespace Options

variable {o o' : Options} {k : Key} {v a : String} {args : List String} {pairs : List (Key × String)}

/-- Gives options their values one by one. -/
def give (o : Options) (pairs : List (Key × String)) : Except UsageFault Options :=
  pairs.foldlM (fun o pair => o.set pair.1 pair.2) o

/-- Two dashes that stand alone are no option. -/
theorem ne_dashes {attached : Option String} (h : Spelling.ofArgument a = .option k attached) :
    a ≠ "--" := by
  rintro rfl
  have hother : Spelling.ofArgument "--" = .other := by decide
  rw [hother] at h
  cases h

theorem read_attached (h : Attached k v a) :
    read o (a :: args) = o.set k v >>= fun o => read o args := by
  have hoption := Spelling.ofArgument_eq_attached_iff.mpr h
  rw [read]
  · simp only [hoption]
  · exact ne_dashes hoption

theorem read_bare (h : Bare k a) (hv : Separate v) :
    read o (a :: v :: args) = o.set k v >>= fun o => read o args := by
  have hoption := Spelling.ofArgument_eq_bare_iff.mpr h
  rw [read]
  · simp only [hoption, canBeValue_iff.mpr hv, if_true]
  · exact ne_dashes hoption

/-- What is read depends on the options and their values alone. -/
theorem read_of_gives (h : Gives args pairs) : read o args = o.give pairs >>= finish := by
  induction h generalizing o with
  | nothing => rfl
  | dashes => rfl
  | @option k v _ rest _ hspelled _ ih =>
    have hread : ∀ spelled, Spells k v spelled →
        read o (spelled ++ rest) = o.set k v >>= fun o => read o rest := by
      rintro spelled (ha | ⟨ha, hv⟩)
      · exact read_attached ha
      · exact read_bare ha hv
    rw [hread _ hspelled, give, List.foldlM_cons, bind_assoc]
    exact bind_congr fun o => ih

/-- Arguments that are accepted give options. -/
theorem exists_gives_of_read (h : read o args = .ok (.compile o')) : ∃ pairs, Gives args pairs := by
  fun_induction read o args with
  | case1 o => exact ⟨[], .nothing⟩
  | case2 o => exact ⟨[], .dashes⟩
  | case3 => cases h
  | case4 => cases h
  | case5 => cases h
  | case6 => cases h
  | case7 o a rest hdashes k v hoption ih =>
    obtain ⟨o₁, -, h⟩ := bind_eq_ok_iff.mp h
    obtain ⟨pairs, hpairs⟩ := ih o₁ h
    exact ⟨_, .option (.attached (Spelling.ofArgument_eq_attached_iff.mp hoption)) hpairs⟩
  | case8 => cases h
  | case9 o a hdashes k hoption v rest hv ih =>
    obtain ⟨o₁, -, h⟩ := bind_eq_ok_iff.mp h
    obtain ⟨pairs, hpairs⟩ := ih o₁ h
    exact ⟨_, .option (.separate (Spelling.ofArgument_eq_bare_iff.mp hoption) (canBeValue_iff.mp hv))
      hpairs⟩
  | case10 => cases h

theorem finish_eq_ok_iff {request : Request} :
    o.finish = .ok request ↔
      ¬ (o.interface.isSome = true ∧ o.dump.isSome = true) ∧ request = .compile o := by
  unfold finish
  rw [← Bool.and_eq_true]
  split
  · next htwo => simp [htwo]
  · next hone =>
    simp [hone, eq_comm]

end Options

/-! ## Giving options their values -/

namespace Options

variable {o o' : Options} {k k' : Key} {v v' : String} {pairs : List (Key × String)}

def put (o : Options) (k : Key) (v : String) : Options :=
  match k with
  | .config => { o with config := some v }
  | .ruleFile => { o with ruleFile := some v }
  | .segment => { o with segment := some v }
  | .interface => { o with interface := some v }
  | .dump => { o with dump := some v }
  | .format => { o with format := Format.ofName? v }

theorem get_empty (k : Key) : ({} : Options).get k = none := by
  cases k <;> rfl

theorem get_put (h : k.Allows v) : (o.put k v).get k' = if k' = k then some v else o.get k' := by
  cases k with
  | format =>
    obtain ⟨format, rfl⟩ := h
    cases k' <;> simp [get, put, Format.ofName?_name]
  | config | ruleFile | segment | interface | dump => cases k' <;> rfl

/-- An option is given only once. -/
theorem store_eq_ok_iff {α : Type} {store : Option α → Options} {x : Option α} {a : α} :
    (do return store (← setOnce k a x) : Except UsageFault Options) = .ok o' ↔
      x = none ∧ o' = store (some a) := by
  cases x with
  | none => exact ⟨fun h => ⟨rfl, (Except.ok.inj h).symm⟩, fun h => congrArg Except.ok h.2.symm⟩
  | some b => exact ⟨nofun, nofun⟩

theorem set_eq_ok_iff : o.set k v = .ok o' ↔ (k.Allows v ∧ o.get k = none) ∧ o' = o.put k v := by
  cases k with
  | config =>
    rw [set, Key.Allows]
    split
    · next hempty => simp [String.isEmpty_iff.mp hempty]
    · next hne =>
      rw [String.isEmpty_iff] at hne
      exact store_eq_ok_iff.trans (by simp [hne, get, put])
  | format =>
    rw [set, Key.Allows]
    cases hformat : Format.ofName? v with
    | none =>
      have hnone : ¬ ∃ format : Format, v = format.name := by
        rintro ⟨format, rfl⟩
        rw [Format.ofName?_name] at hformat
        cases hformat
      simp [hnone]
    | some format =>
      obtain rfl := Format.ofName?_eq_some_iff.mp hformat
      exact store_eq_ok_iff.trans (by simp [get, put, hformat])
  | ruleFile => exact store_eq_ok_iff.trans (by simp [Key.Allows, get, put])
  | segment => exact store_eq_ok_iff.trans (by simp [Key.Allows, get, put])
  | interface => exact store_eq_ok_iff.trans (by simp [Key.Allows, get, put])
  | dump => exact store_eq_ok_iff.trans (by simp [Key.Allows, get, put])

/-- The options with all these values. -/
def putAll (o : Options) (pairs : List (Key × String)) : Options :=
  pairs.foldl (fun o pair => o.put pair.1 pair.2) o

/-- The pairs can be given, each once, to options that have none of them yet. -/
def Fresh (o : Options) (pairs : List (Key × String)) : Prop :=
  (∀ pair ∈ pairs, pair.1.Allows pair.2 ∧ o.get pair.1 = none) ∧ (pairs.map Prod.fst).Nodup

theorem get_put_eq_none_iff (h : k.Allows v) :
    (o.put k v).get k' = none ↔ k' ≠ k ∧ o.get k' = none := by
  rw [get_put h]
  by_cases hk : k' = k <;> simp [hk]

theorem fresh_cons_iff :
    o.Fresh ((k, v) :: pairs) ↔ (k.Allows v ∧ o.get k = none) ∧ (o.put k v).Fresh pairs := by
  unfold Fresh
  rw [List.forall_mem_cons, List.map_cons, List.nodup_cons]
  constructor
  · rintro ⟨⟨hpair, hrest⟩, hk, hnodup⟩
    refine ⟨hpair, fun pair hmem => ⟨(hrest pair hmem).1, ?_⟩, hnodup⟩
    rw [get_put_eq_none_iff hpair.1]
    exact ⟨ne_of_mem_of_not_mem (List.mem_map_of_mem hmem) hk, (hrest pair hmem).2⟩
  · rintro ⟨hpair, hrest, hnodup⟩
    simp only [get_put_eq_none_iff hpair.1] at hrest
    refine ⟨⟨hpair, fun pair hmem => ⟨(hrest pair hmem).1, (hrest pair hmem).2.2⟩⟩, ?_, hnodup⟩
    intro hk
    obtain ⟨pair, hmem, rfl⟩ := List.mem_map.mp hk
    exact (hrest pair hmem).2.1 rfl

theorem give_eq_ok_iff : o.give pairs = .ok o' ↔ o.Fresh pairs ∧ o' = o.putAll pairs := by
  induction pairs generalizing o with
  | nil =>
    simp only [Fresh, List.not_mem_nil, false_implies, implies_true, List.map_nil, List.nodup_nil,
      true_and]
    exact ⟨fun h => (Except.ok.inj h).symm, fun h => h ▸ rfl⟩
  | cons pair rest ih =>
    rw [fresh_cons_iff, give, List.foldlM_cons, bind_eq_ok_iff]
    constructor
    · rintro ⟨o₁, hset, hgive⟩
      obtain ⟨hpair, rfl⟩ := set_eq_ok_iff.mp hset
      obtain ⟨hrest, rfl⟩ := ih.mp hgive
      exact ⟨⟨hpair, hrest⟩, rfl⟩
    · rintro ⟨⟨hpair, hrest⟩, rfl⟩
      exact ⟨_, set_eq_ok_iff.mpr ⟨hpair, rfl⟩, ih.mpr ⟨hrest, rfl⟩⟩

theorem get_putAll (h : o.Fresh pairs) :
    (o.putAll pairs).get k = some v ↔ (k, v) ∈ pairs ∨ o.get k = some v := by
  induction pairs generalizing o with
  | nil => simp [putAll]
  | cons pair rest ih =>
    obtain ⟨k', v'⟩ := pair
    obtain ⟨⟨hallows, hnone⟩, hrest⟩ := fresh_cons_iff.mp h
    show ((o.put k' v').putAll rest).get k = some v ↔ _
    rw [ih hrest, get_put hallows, List.mem_cons, Prod.mk.injEq]
    by_cases hk : k = k'
    · subst hk
      simp [hnone, eq_comm, or_comm]
    · simp [hk]

/-- The options with these values and no others. -/
def ofPairs (pairs : List (Key × String)) : Options := ({} : Options).putAll pairs

theorem has_ofPairs (h : ({} : Options).Fresh pairs) : (ofPairs pairs).Has pairs := by
  intro k v
  rw [ofPairs, get_putAll h, get_empty]
  simp

end Options

section Accepted

open Options (ofPairs)

variable {args : List String} {pairs : List (Key × String)} {o : Options}

theorem Admissible.fresh (h : Admissible pairs) : ({} : Options).Fresh pairs :=
  ⟨fun _ hpair => ⟨h.allowed _ _ hpair, Options.get_empty _⟩, h.once⟩

/-- Arguments are read as options just if what they give is admissible. -/
theorem read_eq_compile_iff (h : Gives args pairs) :
    Options.read {} args = .ok (.compile o) ↔ Admissible pairs ∧ o = ofPairs pairs := by
  rw [Options.read_of_gives h, bind_eq_ok_iff]
  simp only [Options.give_eq_ok_iff, Options.finish_eq_ok_iff, Request.compile.injEq]
  constructor
  · rintro ⟨_, ⟨hfresh, rfl⟩, hone, rfl⟩
    have hhas := Options.has_ofPairs hfresh
    refine ⟨⟨hfresh.2, fun k v hkv => (hfresh.1 _ hkv).1, fun hboth => hone ?_⟩, rfl⟩
    exact ⟨(hhas.isSome_get (k := .interface)).mpr hboth.1, (hhas.isSome_get (k := .dump)).mpr hboth.2⟩
  · rintro ⟨hadmissible, rfl⟩
    have hfresh := hadmissible.fresh
    have hhas := Options.has_ofPairs hfresh
    refine ⟨_, ⟨hfresh, rfl⟩, fun hboth => hadmissible.oneSource ?_, rfl⟩
    exact ⟨(hhas.isSome_get (k := .interface)).mp hboth.1, (hhas.isSome_get (k := .dump)).mp hboth.2⟩

theorem parse_eq_ok_iff : Options.parse args = .ok o ↔ Options.read {} args = .ok (.compile o) := by
  unfold Options.parse
  cases Options.read {} args with
  | error fault => simp
  | ok request => cases request <;> simp

/-- What cannot be given together is wrong usage, whatever else could be asked for. -/
theorem parse_of_refused (h : Gives args pairs) (hrefused : ¬ Admissible pairs) :
    Options.parse args = .error ⟨2, "", []⟩ := by
  unfold Options.parse
  cases hread : Options.read {} args with
  | error fault => rfl
  | ok request =>
    have hfinish := hread
    rw [Options.read_of_gives h, bind_eq_ok_iff] at hfinish
    obtain ⟨o, -, hfinish⟩ := hfinish
    obtain ⟨-, rfl⟩ := Options.finish_eq_ok_iff.mp hfinish
    exact absurd ((read_eq_compile_iff h).mp hread).1 hrefused

/-- The program reads its arguments by the grammar. -/
theorem Options.grammatical_parse : Grammatical Options.parse where
  accepts _ pairs h hadmissible :=
    ⟨ofPairs pairs, parse_eq_ok_iff.mpr ((read_eq_compile_iff h).mpr ⟨hadmissible, rfl⟩),
      Options.has_ofPairs hadmissible.fresh⟩
  refuses _ _ := parse_of_refused
  nothingElse _ _ h := Options.exists_gives_of_read (parse_eq_ok_iff.mp h)

end Accepted

end PolicyGraph.CommandLine
