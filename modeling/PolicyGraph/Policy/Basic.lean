/-!
# Policies

An ordered list of rules. A rule says which packets it matches, how it ranks among others, and what
happens to the packets it matched, action by action. The place of a rule in its list is its index.
-/

namespace PolicyGraph

/-- How a rule ranks in the classifier. -/
inductive Priority
  | low | medium | high
  deriving DecidableEq, Repr, Inhabited

namespace Priority

def name : Priority → String
  | .low => "low"
  | .medium => "medium"
  | .high => "high"

def all : List Priority := [.low, .medium, .high]

def ofName? (name : String) : Option Priority := all.find? (·.name == name)

@[simp] theorem ofName?_name (p : Priority) : ofName? p.name = some p := by
  cases p <;> decide

end Priority

/-- The packet header fields that a rule may constrain. -/
inductive HeaderField
  | ethSrc | ethDst | ethType | vlanVid | vlanPcp | ipv4Proto | ipv4Src | ipv4Dst
  | tcpSrc | tcpDst | udpSrc | udpDst
  deriving DecidableEq, Repr, Inhabited

namespace HeaderField

def name : HeaderField → String
  | .ethSrc => "eth_src"
  | .ethDst => "eth_dst"
  | .ethType => "eth_type"
  | .vlanVid => "vlan_vid"
  | .vlanPcp => "vlan_pcp"
  | .ipv4Proto => "ipv4_proto"
  | .ipv4Src => "ipv4_src"
  | .ipv4Dst => "ipv4_dst"
  | .tcpSrc => "tcp_src"
  | .tcpDst => "tcp_dst"
  | .udpSrc => "udp_src"
  | .udpDst => "udp_dst"

/-- Every field, in the order in which matches list them. -/
def all : List HeaderField :=
  [.ethSrc, .ethDst, .ethType, .vlanVid, .vlanPcp, .ipv4Proto, .ipv4Src, .ipv4Dst,
    .tcpSrc, .tcpDst, .udpSrc, .udpDst]

def ofName? (name : String) : Option HeaderField := all.find? (·.name == name)

@[simp] theorem mem_all (f : HeaderField) : f ∈ all := by
  cases f <;> decide

@[simp] theorem ofName?_name (f : HeaderField) : ofName? f.name = some f := by
  cases f <;> decide

end HeaderField

/-- What a rule demands of the header fields: a value for each field it constrains. A match without
constraints accepts every packet. -/
structure HeaderMatch where
  get : HeaderField → Option String

namespace HeaderMatch

@[ext] theorem ext {a b : HeaderMatch} (same : ∀ f, a.get f = b.get f) : a = b := by
  cases a
  cases b
  congr
  exact funext same

instance : DecidableEq HeaderMatch := fun a b =>
  decidable_of_iff (∀ f ∈ HeaderField.all, a.get f = b.get f)
    ⟨fun h => ext fun f => h f f.mem_all, fun h _ _ => h ▸ rfl⟩

/-- The match that accepts every packet. -/
def any : HeaderMatch := ⟨fun _ => none⟩

instance : Inhabited HeaderMatch := ⟨any⟩

/-- Demands a value for a field, in place of an earlier demand for it. -/
def require (m : HeaderMatch) (field : HeaderField) (value : String) : HeaderMatch :=
  ⟨fun f => if f = field then some value else m.get f⟩

/-- The constraints, in the order of the fields. -/
def constraints (m : HeaderMatch) : List (HeaderField × String) :=
  HeaderField.all.filterMap fun f => (m.get f).map (f, ·)

/-- The match with these constraints, of two for one field the later. -/
def ofConstraints (cs : List (HeaderField × String)) : HeaderMatch :=
  cs.foldl (fun m (f, v) => m.require f v) any

def size (m : HeaderMatch) : Nat := m.constraints.length

def acceptsAll (m : HeaderMatch) : Bool := m.constraints.isEmpty

@[simp] theorem get_any (f : HeaderField) : any.get f = none := rfl

@[simp] theorem get_require (m : HeaderMatch) (field f : HeaderField) (value : String) :
    (m.require field value).get f = if f = field then some value else m.get f := rfl

end HeaderMatch

/-- What happens to a packet that a rule matched. -/
inductive Action
  | alert (message : String)
  | output (interface : String)
  | drop
  | log (message : String)
  /-- An action of a kind that is not known. It is kept, but has no effect. -/
  | unknown (kind : String)
  deriving DecidableEq, Repr, Inhabited

namespace Action

/-- The kind as rule files write it. -/
def kind : Action → String
  | .alert _ => "alert"
  | .output _ => "output"
  | .drop => "drop"
  | .log _ => "log"
  | .unknown kind => kind

/-- The action in one line. -/
def describe : Action → String
  | .alert message => "alert(" ++ message ++ ")"
  | .output interface => "output(" ++ interface ++ ")"
  | .drop => "drop"
  | .log message => "log(" ++ message ++ ")"
  | .unknown kind => "unknown(" ++ kind ++ ")"

end Action

/-- One entry of a policy. -/
structure Rule where
  headerMatch : HeaderMatch := .any
  priority : Priority := .medium
  actions : List Action := []
  deriving DecidableEq, Inhabited

end PolicyGraph
