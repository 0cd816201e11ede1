import PolicyGraph.Yaml.Node
import PolicyGraph.Yaml.Token.Lexer

/-!
# From tokens to nodes

One function for each kind of collection. Every function answers what it read together with the
tokens that follow, and a proof that these are fewer, which is why the reading ends.
-/

namespace PolicyGraph.Yaml

/-- What is known at a point of a document: the expansions of tag handles, and the slot of each anchor
name. -/
structure Scope where
  shorthands : List (String × String)
  anchors : List (String × Nat) := []

namespace Scope

/-- The handles that need no directive. -/
def standardShorthands : List (String × String) :=
  [("!", "!"), ("!!", "tag:yaml.org,2002:")]

/-- Gives an anchor name the slot with the number of names known so far, also when it is one of
them. -/
def define (name : String) (scope : Scope) : Nat × Scope :=
  let slot := scope.anchors.length
  let anchors :=
    if scope.anchors.any (·.1 == name) then
      scope.anchors.map fun (other, s) => (other, if other == name then slot else s)
    else (name, slot) :: scope.anchors
  (slot, { scope with anchors })

/-- A tag in one piece. -/
def expand (scope : Scope) (handle suffix : String) : Option String :=
  if handle.isEmpty then some suffix else (scope.shorthands.lookup handle).map (· ++ suffix)

end Scope

/-- What was read, and fewer tokens than before. -/
structure Taken (α : Type) (ts : List Token) where
  value : α
  scope : Scope
  rest : List Token
  shorter : rest.length < ts.length

/-- What was read, perhaps from no token. -/
structure Given (α : Type) (ts : List Token) where
  value : α
  scope : Scope
  rest : List Token
  notLonger : rest.length ≤ ts.length

namespace Node

/-- Reads an anchor and a tag in either order, each at most once. -/
def readProperties (scope : Scope) (ts : List Token) : Option (Given Properties ts) :=
  match ts with
  | .anchor name :: .tag handle suffix :: rest => do
    let (slot, scope) := scope.define name
    some ⟨⟨slot, ← scope.expand handle suffix⟩, scope, rest, by simp; omega⟩
  | .tag handle suffix :: .anchor name :: rest => do
    let (slot, scope) := scope.define name
    some ⟨⟨slot, ← scope.expand handle suffix⟩, scope, rest, by simp; omega⟩
  | .anchor name :: rest =>
    let (slot, scope) := scope.define name
    some ⟨⟨slot, none⟩, scope, rest, by simp⟩
  | .tag handle suffix :: rest => do
    some ⟨⟨none, ← scope.expand handle suffix⟩, scope, rest, by simp⟩
  | ts => some ⟨{}, scope, ts, Nat.le_refl _⟩

/-- Whether an entry of a block mapping ends at the next token without a node. -/
def endsEntry : List Token → Bool
  | .key :: _ | .value :: _ | .blockEnd :: _ => true
  | _ => false

/-- Whether an item of a block sequence ends at the next token without a node. -/
def endsItem : List Token → Bool
  | .item :: _ | .blockEnd :: _ => true
  | _ => false

/-- Whether an item without indentation of its own ends at the next token without a node. -/
def endsDash (ts : List Token) : Bool :=
  endsItem ts || endsEntry ts

/-- Whether a part of a flow mapping ends at the next token without a node. -/
def endsFlowEntry : List Token → Bool
  | .comma :: _ | .flowMappingEnd :: _ => true
  | _ => false

/-- Whether a part of a flow sequence ends at the next token without a node. -/
def endsFlowItem : List Token → Bool
  | .comma :: _ | .flowSequenceEnd :: _ => true
  | _ => false

def startsWithValue : List Token → Bool
  | .value :: _ => true
  | _ => false

/-- A scalar with the lone mark as its tag has no tag. -/
def scalarOf (p : Properties) (style : ScalarStyle) (text : String) : Node :=
  .scalar { p with tag := p.tag.filter (· != "!") } style text

/-- Stands for a node that is not written. -/
def absent (scope : Scope) (ts : List Token) : Given Node ts := ⟨.empty, scope, ts, Nat.le_refl _⟩

mutual

/-- Reads a node. Block collections occur where `block` says so, and sequences without indentation of
their own where `dash` says so. -/
def read (block dash : Bool) (scope : Scope) (ts : List Token) : Option (Taken Node ts) :=
  match ts with
  | .alias name :: rest => do
    some ⟨.alias (← scope.anchors.lookup name), scope, rest, by simp⟩
  | ts => do
    let ⟨p, scope, here, le⟩ ← readProperties scope ts
    match eq : here with
    | .scalar style text :: rest => some ⟨scalarOf p style text, scope, rest, by grind⟩
    | .flowSequence :: rest =>
      let ⟨items, scope, rest', lt⟩ ← readFlowItems true scope rest
      some ⟨.sequence p items, scope, rest', by grind⟩
    | .flowMapping :: rest =>
      let ⟨entries, scope, rest', lt⟩ ← readFlowEntries true scope rest
      some ⟨.mapping p entries, scope, rest', by grind⟩
    | _ =>
      if dash && here.head? == some .item then
        let ⟨items, scope, rest, lt⟩ ← readDashes scope here
        some ⟨.sequence p items, scope, rest, by grind⟩
      else match block, eq' : here with
      | true, .blockSequence :: rest =>
        let ⟨items, scope, rest', lt⟩ ← readItems scope rest
        some ⟨.sequence p items, scope, rest', by grind⟩
      | true, .blockMapping :: rest =>
        let ⟨entries, scope, rest', lt⟩ ← readEntries scope rest
        some ⟨.mapping p entries, scope, rest', by grind⟩
      | _, _ =>
        -- Properties alone stand for an empty scalar.
        if h : here.length < ts.length then some ⟨.scalar p .plain "", scope, here, h⟩ else none
termination_by (ts.length, 1)
decreasing_by all_goals (simp only [Prod.lex_def]; grind)

/-- Reads the items of a block sequence and its end. -/
def readItems (scope : Scope) (ts : List Token) : Option (Taken (List Node) ts) :=
  match ts with
  | .blockEnd :: rest => some ⟨[], scope, rest, by simp⟩
  | .item :: rest => do
    let ⟨node, scope, rest', le⟩ ← readUnless (endsItem rest) true false scope rest
    let ⟨items, scope, rest'', lt⟩ ← readItems scope rest'
    some ⟨node :: items, scope, rest'', by grind⟩
  | _ => none
termination_by (ts.length, 0)
decreasing_by all_goals (simp only [Prod.lex_def]; grind)

/-- Reads items that are indented like the mapping around them, up to the first token that is none. -/
def readDashes (scope : Scope) (ts : List Token) : Option (Taken (List Node) ts) :=
  match ts with
  | .item :: rest => do
    let ⟨node, scope, rest', le⟩ ← readUnless (endsDash rest) true false scope rest
    if rest'.head? == some .item then
      let ⟨items, scope, rest'', lt⟩ ← readDashes scope rest'
      some ⟨node :: items, scope, rest'', by grind⟩
    else some ⟨[node], scope, rest', by grind⟩
  | _ => none
termination_by (ts.length, 0)
decreasing_by all_goals (simp only [Prod.lex_def]; grind)

/-- Reads the entries of a block mapping and its end. -/
def readEntries (scope : Scope) (ts : List Token) : Option (Taken (List (Node × Node)) ts) :=
  match ts with
  | .blockEnd :: rest => some ⟨[], scope, rest, by simp⟩
  | .key :: rest => do
    let ⟨key, scope, rest', le⟩ ← readUnless (endsEntry rest) true true scope rest
    match eq : rest' with
    | .value :: after =>
      let ⟨value, scope, rest'', le'⟩ ← readUnless (endsEntry after) true true scope after
      let ⟨entries, scope, rest₃, lt⟩ ← readEntries scope rest''
      some ⟨(key, value) :: entries, scope, rest₃, by grind⟩
    | _ =>
      let ⟨entries, scope, rest'', lt⟩ ← readEntries scope rest'
      some ⟨(key, .empty) :: entries, scope, rest'', by grind⟩
  | _ => none
termination_by (ts.length, 0)
decreasing_by all_goals (simp only [Prod.lex_def]; grind)

/-- Reads the items of a flow sequence and its end; all but the first follow a comma. -/
def readFlowItems (first : Bool) (scope : Scope) (ts : List Token) :
    Option (Taken (List Node) ts) :=
  match first, ts with
  | _, .flowSequenceEnd :: rest => some ⟨[], scope, rest, by simp⟩
  | false, .comma :: .flowSequenceEnd :: rest => some ⟨[], scope, rest, by grind⟩
  | false, .comma :: rest => do
    let ⟨items, scope, rest', lt⟩ ← readFlowItem scope rest
    some ⟨items, scope, rest', by grind⟩
  | false, _ => none
  | true, ts => readFlowItem scope ts
termination_by (ts.length, 3)
decreasing_by all_goals (simp only [Prod.lex_def]; grind)

/-- Reads an item of a flow sequence, which may be a pair without braces, and the items after it. -/
def readFlowItem (scope : Scope) (ts : List Token) : Option (Taken (List Node) ts) :=
  match ts with
  | .key :: rest => do
    let ⟨pair, scope, rest', le⟩ ← readFlowPair scope rest
    let ⟨items, scope, rest'', lt⟩ ← readFlowItems false scope rest'
    some ⟨.mapping {} [pair] :: items, scope, rest'', by grind⟩
  | ts => do
    let ⟨node, scope, rest, lt⟩ ← read false false scope ts
    let ⟨items, scope, rest', lt'⟩ ← readFlowItems false scope rest
    some ⟨node :: items, scope, rest', by omega⟩
termination_by (ts.length, 2)
decreasing_by all_goals (simp only [Prod.lex_def]; grind)

/-- Reads a pair inside a flow sequence. A key that is not written takes the token after it along. -/
def readFlowPair (scope : Scope) (ts : List Token) : Option (Given (Node × Node) ts) := do
  let ⟨key, scope, rest, le⟩ ← (do
    if startsWithValue ts || endsFlowItem ts then
      some ⟨Node.empty, scope, ts.drop 1, by simp⟩
    else
      let ⟨key, scope, rest, lt⟩ ← read false false scope ts
      some ⟨key, scope, rest, by omega⟩ : Option (Given Node ts))
  match eq : rest with
  | .value :: after =>
    let ⟨value, scope, rest', le'⟩ ← readUnless (endsFlowItem after) false false scope after
    some ⟨(key, value), scope, rest', by grind⟩
  | _ => some ⟨(key, .empty), scope, rest, le⟩
termination_by (ts.length, 3)
decreasing_by all_goals (simp only [Prod.lex_def]; grind)

/-- Reads the entries of a flow mapping and its end; all but the first follow a comma. -/
def readFlowEntries (first : Bool) (scope : Scope) (ts : List Token) :
    Option (Taken (List (Node × Node)) ts) :=
  match first, ts with
  | _, .flowMappingEnd :: rest => some ⟨[], scope, rest, by simp⟩
  | false, .comma :: .flowMappingEnd :: rest => some ⟨[], scope, rest, by grind⟩
  | false, .comma :: rest => do
    let ⟨entries, scope, rest', lt⟩ ← readFlowEntry scope rest
    some ⟨entries, scope, rest', by grind⟩
  | false, _ => none
  | true, ts => readFlowEntry scope ts
termination_by (ts.length, 3)
decreasing_by all_goals (simp only [Prod.lex_def]; grind)

/-- Reads an entry of a flow mapping, and the entries after it. Only an entry with a key mark has a
value. -/
def readFlowEntry (scope : Scope) (ts : List Token) : Option (Taken (List (Node × Node)) ts) :=
  match ts with
  | .key :: rest => do
    let ⟨key, scope, rest', le⟩ ←
      readUnless (startsWithValue rest || endsFlowEntry rest) false false scope rest
    match eq : rest' with
    | .value :: after =>
      let ⟨value, scope, rest'', le'⟩ ← readUnless (endsFlowEntry after) false false scope after
      let ⟨entries, scope, rest₃, lt⟩ ← readFlowEntries false scope rest''
      some ⟨(key, value) :: entries, scope, rest₃, by grind⟩
    | _ =>
      let ⟨entries, scope, rest'', lt⟩ ← readFlowEntries false scope rest'
      some ⟨(key, .empty) :: entries, scope, rest'', by grind⟩
  | ts => do
    let ⟨key, scope, rest, lt⟩ ← read false false scope ts
    let ⟨entries, scope, rest', lt'⟩ ← readFlowEntries false scope rest
    some ⟨(key, .empty) :: entries, scope, rest', by omega⟩
termination_by (ts.length, 2)
decreasing_by all_goals (simp only [Prod.lex_def]; grind)

/-- Reads a node unless none is written. -/
def readUnless (missing block dash : Bool) (scope : Scope) (ts : List Token) :
    Option (Given Node ts) :=
  if missing then some (absent scope ts)
  else do
    let ⟨node, scope, rest, lt⟩ ← read block dash scope ts
    some ⟨node, scope, rest, Nat.le_of_lt lt⟩
termination_by (ts.length, 2)
decreasing_by all_goals (simp only [Prod.lex_def]; grind)

end

end Node

namespace Document

/-- The directives before a document: at most one version, which must be 1.1 or 1.2, and each handle
at most once. -/
def readDirectives (versioned : Bool) (shorthands : List (String × String)) :
    List Token → Option (List (String × String) × List Token)
  | .version major minor :: rest =>
    if versioned || major != 1 || (minor != 1 && minor != 2) then none
    else readDirectives true shorthands rest
  | .shorthand handle expansion :: rest =>
    if shorthands.any (·.1 == handle) then none
    else readDirectives versioned ((handle, expansion) :: shorthands) rest
  | rest => some (shorthands, rest)

/-- Whether the document that has just begun ends at the next token without a node. -/
def endsContent : List Token → Bool
  | [] | .version .. :: _ | .shorthand .. :: _ | .documentStart :: _ | .documentEnd :: _ => true
  | _ => false

/-- Whether a directive comes next. -/
def startsWithDirective : List Token → Bool
  | .version .. :: _ | .shorthand .. :: _ => true
  | _ => false

/-- Reads the only document of a stream. Directives need the line that opens a document after them,
and nothing may follow but lines that close it. A stream without tokens holds the empty scalar. -/
def ofTokens? (ts : List Token) : Option Document := do
  let (shorthands, rest) ← readDirectives false [] ts
  let scope : Scope := ⟨shorthands ++ Scope.standardShorthands, []⟩
  let (root, rest) ← match rest with
    | .documentStart :: rest =>
      if endsContent rest then pure (Node.empty, rest)
      else do let node ← Node.read true false scope rest; pure (node.value, node.rest)
    | [] => if startsWithDirective ts then none else pure (Node.empty, [])
    | rest =>
      if startsWithDirective ts then none
      else do let node ← Node.read true false scope rest; pure (node.value, node.rest)
  if rest.all (· == .documentEnd) then some (.ofRoot root) else none

/-- Reads the only document of a text. -/
def ofText? (text : String) : Option Document := do
  ofTokens? (← Token.ofText? text)

end Document

end PolicyGraph.Yaml
