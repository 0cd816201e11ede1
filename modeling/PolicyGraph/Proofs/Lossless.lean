import Mathlib.Data.List.Forall2
import Mathlib.Data.List.Nodup
import PolicyGraph.Wiring

/-!
# Trees of deployments

The tree of a deployment holds all that is deployed: lists of statements whose trees hold the same data
are equal (`deployed_alike_iff_eq`). This is shown type by type: a value can be told from the fields of its
object, by their names. The settings of a block stand in one object with its id and the name of its kind,
so it matters that no object has two fields of one name.
-/

namespace PolicyGraph

namespace Tree

/-- The trees hold the same data. The fields of objects are compared by name, whatever their order. -/
inductive Alike : Tree → Tree → Prop
  | refl (t : Tree) : Alike t t
  | list {ts us : List Tree} : List.Forall₂ Alike ts us → Alike (.list ts) (.list us)
  | object {fs gs : List (String × Tree)} :
      (∀ name, Option.Rel Alike (fs.lookup name) (gs.lookup name)) → Alike (.object fs) (.object gs)

/-- No object in the tree has two fields of one name. -/
inductive WellNamed : Tree → Prop
  | null : WellNamed .null
  | bool (b : Bool) : WellNamed (.bool b)
  | integer (n : Int) : WellNamed (.integer n)
  | float (x : Decimal.Binary64) : WellNamed (.float x)
  | text (s : String) : WellNamed (.text s)
  | list {ts : List Tree} : (∀ t ∈ ts, WellNamed t) → WellNamed (.list ts)
  | object {fs : List (String × Tree)} :
      (fs.map Prod.fst).Nodup → (∀ f ∈ fs, WellNamed f.2) → WellNamed (.object fs)

namespace Alike

variable {ts us : List Tree} {fs gs : List (String × Tree)}

theorem items (h : Alike (.list ts) (.list us)) : List.Forall₂ Alike ts us := by
  cases h with
  | refl => exact List.forall₂_same.mpr fun t _ => .refl t
  | list h => exact h

theorem lookup (h : Alike (.object fs) (.object gs)) (name : String) :
    Option.Rel Alike (fs.lookup name) (gs.lookup name) := by
  cases h with
  | refl =>
    cases fs.lookup name with
    | none => exact .none
    | some t => exact .some (.refl t)
  | object h => exact h name

theorem field (h : Alike (.object fs) (.object gs)) {name : String} {t u : Tree}
    (ht : fs.lookup name = some t) (hu : gs.lookup name = some u) : Alike t u := by
  have hrel := h.lookup name
  rw [ht, hu] at hrel
  cases hrel with
  | some h => exact h

end Alike

/-! ## Values told by their trees -/

/-- Values whose trees hold the same data are equal. -/
def Lossless {α : Type} (toTree : α → Tree) : Prop := ∀ a b, Alike (toTree a) (toTree b) → a = b

namespace Lossless

variable {α β : Type} {f : α → Tree}

theorem text : Lossless Tree.text := by
  intro s s' h
  cases h
  rfl

theorem bool : Lossless Tree.bool := by
  intro b b' h
  cases h
  rfl

theorem integer : Lossless Tree.integer := by
  intro n n' h
  cases h
  rfl

theorem comp (hf : Lossless f) {g : β → α} (hg : Function.Injective g) : Lossless fun b => f (g b) :=
  fun b b' h => hg (hf (g b) (g b') h)

theorem ofNat : Lossless Tree.ofNat := integer.comp fun _ _ => Int.ofNat.inj

theorem list (hf : Lossless f) : Lossless fun as : List α => .list (as.map f) := by
  intro as bs h
  have hitems := h.items
  rw [List.forall₂_map_left_iff, List.forall₂_map_right_iff] at hitems
  rw [← List.forall₂_eq_eq_eq]
  exact hitems.imp fun a b => hf a b

/-- A value that is a field of objects is told by them. -/
theorem field (hf : Lossless f) {fs gs : List (String × Tree)} (h : Alike (.object fs) (.object gs))
    (name : String) {a b : α} (ha : fs.lookup name = some (f a)) (hb : gs.lookup name = some (f b)) :
    a = b :=
  hf a b (h.field ha hb)

end Lossless

end Tree

open PolicyGraph.Tree (Alike WellNamed Lossless)

/-! ## Matches and priorities -/

theorem Priority.lossless_toTree : Lossless Priority.toTree := by
  refine Lossless.text.comp fun p q h => ?_
  rw [← Option.some.injEq, ← p.ofName?_name, ← q.ofName?_name, h]

theorem HeaderField.name_injective : Function.Injective HeaderField.name := by
  intro f g h
  rw [← Option.some.injEq, ← f.ofName?_name, ← g.ofName?_name, h]

namespace HeaderMatch

variable (m : HeaderMatch)

/-- The tree of a match has the constraint of a field under its name. -/
theorem lookup_constraints (fields : List HeaderField) (f : HeaderField) :
    ((fields.filterMap fun f => (m.get f).map (f, ·)).map
        fun (f, v) => (f.name, Tree.text v)).lookup f.name =
      if f ∈ fields then (m.get f).map .text else none := by
  induction fields with
  | nil => rfl
  | cons field rest ih =>
    by_cases hf : f = field
    · subst hf
      cases hvalue : m.get f with
      | none => simp [hvalue, ih]
      | some value => simp [hvalue]
    · have hname : (f.name == field.name) = false := by
        simpa using HeaderField.name_injective.ne hf
      cases hvalue : m.get field <;> simp [hvalue, hf, hname, ih, List.lookup_cons]

theorem lossless_toTree : Lossless toTree := by
  intro m m' h
  ext1 f
  have hrel := h.lookup f.name
  rw [constraints, constraints, lookup_constraints, lookup_constraints, if_pos f.mem_all,
    if_pos f.mem_all] at hrel
  generalize m.get f = value, m'.get f = value' at hrel
  cases value <;> cases value'
  · rfl
  · cases hrel
  · cases hrel
  · cases hrel with
    | some htext => rw [Lossless.text _ _ htext]

theorem wellNamed_toTree : WellNamed m.toTree := by
  refine .object ?_ fun f hf => ?_
  · rw [constraints, List.map_map, List.map_filterMap]
    refine List.Nodup.filterMap (fun f f' name hf hf' => HeaderField.name_injective ?_) (by decide)
    simp only [Option.map_map, Option.mem_def, Option.map_eq_some_iff] at hf hf'
    obtain ⟨_, -, rfl⟩ := hf
    obtain ⟨_, -, hname⟩ := hf'
    exact hname.symm
  · obtain ⟨⟨field, value⟩, -, rfl⟩ := List.mem_map.mp hf
    exact .text value

end HeaderMatch

/-! ## Blocks -/

theorem ClassifierEntry.lossless_toTree : Lossless ClassifierEntry.toTree := by
  rintro ⟨m, priority, order⟩ ⟨m', priority', order'⟩ h
  obtain rfl : m = m' := HeaderMatch.lossless_toTree.field h "header_match" rfl rfl
  obtain rfl : priority = priority' := Priority.lossless_toTree.field h "priority" rfl rfl
  obtain rfl : order = order' := Lossless.ofNat.field h "order" rfl rfl
  rfl

/-- Blocks of one kind are told by their settings, which the fields for the id and the kind do not
hide. -/
theorem Block.kind_eq_of_alike {b b' : Block} (hname : b.kind.name = b'.kind.name)
    (h : Alike b.toTree b'.toTree) : b.kind = b'.kind := by
  obtain ⟨id, kind⟩ := b
  obtain ⟨id', kind'⟩ := b'
  -- Over the kinds. Two of different names are ruled out, so that one case is left for each.
  cases kind with
  | headerClassifier entries priority continueOnNoMatch =>
    cases kind' with
    | headerClassifier entries' priority' continueOnNoMatch' =>
      have hentries : entries = entries' :=
        ClassifierEntry.lossless_toTree.list.field h "rules" rfl rfl
      have hpriority : priority = priority' := Priority.lossless_toTree.field h "priority" rfl rfl
      have hcontinue : continueOnNoMatch = continueOnNoMatch' :=
        Lossless.bool.field h "continue_on_no_match" rfl rfl
      rw [hentries, hpriority, hcontinue]
    | _ => simp [BlockKind.name] at hname
  | discard =>
    cases kind' with
    | discard => rfl
    | _ => simp [BlockKind.name] at hname
  | alert message =>
    cases kind' with
    | alert message' =>
      have hmessage : message = message' := Lossless.text.field h "message" rfl rfl
      rw [hmessage]
    | _ => simp [BlockKind.name] at hname
  | log message =>
    cases kind' with
    | log message' =>
      have hmessage : message = message' := Lossless.text.field h "message" rfl rfl
      rw [hmessage]
    | _ => simp [BlockKind.name] at hname
  | toDevice interface =>
    cases kind' with
    | toDevice interface' =>
      have hinterface : interface = interface' := Lossless.text.field h "interface" rfl rfl
      rw [hinterface]
    | _ => simp [BlockKind.name] at hname
  | fromDevice interface promiscuous running =>
    cases kind' with
    | fromDevice interface' promiscuous' running' =>
      have hinterface : interface = interface' := Lossless.text.field h "interface" rfl rfl
      have hpromiscuous : promiscuous = promiscuous' := Lossless.bool.field h "promiscuous" rfl rfl
      have hrunning : running = running' := Lossless.bool.field h "running" rfl rfl
      rw [hinterface, hpromiscuous, hrunning]
    | _ => simp [BlockKind.name] at hname
  | fromDump path promiscuous running =>
    cases kind' with
    | fromDump path' promiscuous' running' =>
      have hpath : path = path' := Lossless.text.field h "file_path" rfl rfl
      have hpromiscuous : promiscuous = promiscuous' := Lossless.bool.field h "promiscuous" rfl rfl
      have hrunning : running = running' := Lossless.bool.field h "running" rfl rfl
      rw [hpath, hpromiscuous, hrunning]
    | _ => simp [BlockKind.name] at hname

theorem Block.lossless_toTree : Lossless Block.toTree := by
  intro b b' h
  have hid : b.id = b'.id := Lossless.text.field h "id" rfl rfl
  have hkind := kind_eq_of_alike (Lossless.text.field h "type" rfl rfl) h
  cases b
  cases b'
  simp_all only

/-! ## Graphs and statements -/

theorem Connector.lossless_toTree : Lossless Connector.toTree := by
  rintro ⟨source, port, dest, destPort⟩ ⟨source', port', dest', destPort'⟩ h
  obtain rfl : source = source' := Lossless.text.field h "source_block" rfl rfl
  obtain rfl : port = port' := Lossless.ofNat.field h "source_output_port" rfl rfl
  obtain rfl : dest = dest' := Lossless.text.field h "dest_block" rfl rfl
  obtain rfl : destPort = destPort' := Lossless.ofNat.field h "dest_input_port" rfl rfl
  rfl

theorem Graph.lossless_toTree : Lossless Graph.toTree := by
  rintro ⟨blocks, connectors, root⟩ ⟨blocks', connectors', root'⟩ h
  obtain rfl : blocks = blocks' := Block.lossless_toTree.list.field h "blocks" rfl rfl
  obtain rfl : connectors = connectors' :=
    Connector.lossless_toTree.list.field h "connectors" rfl rfl
  obtain rfl : root = root' := Lossless.text.field h "root" rfl rfl
  rfl

theorem Location.lossless_toTree : Lossless Location.toTree := by
  intro l l' h
  cases l with
  | segment n =>
    cases l' with
    | segment n' =>
      have hsegment : n = n' := Lossless.integer.field h "segment" rfl rfl
      rw [hsegment]
    | host n' name' => exact absurd (Lossless.text.field h "type" rfl rfl) (by decide)
  | host n name =>
    cases l' with
    | segment n' => exact absurd (Lossless.text.field h "type" rfl rfl) (by decide)
    | host n' name' =>
      have hsegment : n = n' := Lossless.integer.field h "segment" rfl rfl
      have hname : name = name' := Lossless.text.field h "host" rfl rfl
      rw [hsegment, hname]

theorem Statement.lossless_toTree : Lossless Statement.toTree := by
  rintro ⟨location, graph⟩ ⟨location', graph'⟩ h
  obtain rfl : location = location' := Location.lossless_toTree.field h "location" rfl rfl
  obtain rfl : graph = graph' := Graph.lossless_toTree.field h "graph" rfl rfl
  rfl

/-! ## Names of fields -/

theorem Tree.WellNamed.map {α : Type} {toTree : α → Tree} (h : ∀ a, WellNamed (toTree a))
    (as : List α) : WellNamed (.list (as.map toTree)) := by
  refine .list fun t ht => ?_
  obtain ⟨a, -, rfl⟩ := List.mem_map.mp ht
  exact h a

theorem ClassifierEntry.wellNamed_toTree (e : ClassifierEntry) : WellNamed e.toTree := by
  refine .object (by simp) ?_
  simp only [List.forall_mem_cons]
  exact ⟨e.headerMatch.wellNamed_toTree, .text _, .integer _, List.forall_mem_nil _⟩

theorem BlockKind.wellNamed_settings (k : BlockKind) : ∀ f ∈ k.settings, WellNamed f.2 := by
  cases k with
  | headerClassifier entries priority continueOnNoMatch =>
    simp only [settings, List.forall_mem_cons]
    exact ⟨.map ClassifierEntry.wellNamed_toTree entries, .text _, .bool _, List.forall_mem_nil _⟩
  | discard => exact List.forall_mem_nil _
  | alert message | log message | toDevice interface =>
    simp only [settings, List.forall_mem_cons]
    exact ⟨.text _, List.forall_mem_nil _⟩
  | fromDevice name promiscuous running | fromDump name promiscuous running =>
    simp only [settings, List.forall_mem_cons]
    exact ⟨.text _, .bool _, .bool _, List.forall_mem_nil _⟩

/-- No setting has the name of the field for the id or of that for the kind. -/
theorem Block.wellNamed_toTree (b : Block) : WellNamed b.toTree := by
  refine .object ?_ ?_
  · cases b.kind <;> simp [BlockKind.settings]
  · simp only [List.forall_mem_cons]
    exact ⟨.text _, .text _, b.kind.wellNamed_settings⟩

theorem Connector.wellNamed_toTree (c : Connector) : WellNamed c.toTree := by
  refine .object (by simp) ?_
  simp only [List.forall_mem_cons]
  exact ⟨.text _, .integer _, .text _, .integer _, List.forall_mem_nil _⟩

theorem Graph.wellNamed_toTree (g : Graph) : WellNamed g.toTree := by
  refine .object (by simp) ?_
  simp only [List.forall_mem_cons]
  exact ⟨.map Block.wellNamed_toTree _, .map Connector.wellNamed_toTree _, .text _,
    List.forall_mem_nil _⟩

theorem Location.wellNamed_toTree (l : Location) : WellNamed l.toTree := by
  cases l with
  | segment n =>
    refine .object (by simp) ?_
    simp only [List.forall_mem_cons]
    exact ⟨.text _, .integer _, List.forall_mem_nil _⟩
  | host n name =>
    refine .object (by simp) ?_
    simp only [List.forall_mem_cons]
    exact ⟨.text _, .integer _, .text _, List.forall_mem_nil _⟩

theorem Statement.wellNamed_toTree (s : Statement) : WellNamed s.toTree := by
  refine .object (by simp) ?_
  simp only [List.forall_mem_cons]
  exact ⟨s.location.wellNamed_toTree, s.graph.wellNamed_toTree, List.forall_mem_nil _⟩

/-! ## Lists of statements -/

/-- Lists of statements are equal just if their trees hold the same data, where the order of fields does
not count. No object in these trees has two fields of one name, so that none can hide another. -/
theorem deployed_alike_iff_eq (a b : List Statement) :
    (Alike (.list (a.map Statement.toTree)) (.list (b.map Statement.toTree)) ↔ a = b) ∧
      WellNamed (.list (a.map Statement.toTree)) := by
  refine ⟨⟨Statement.lossless_toTree.list a b, ?_⟩, .map Statement.wellNamed_toTree a⟩
  rintro rfl
  exact .refl _

end PolicyGraph
