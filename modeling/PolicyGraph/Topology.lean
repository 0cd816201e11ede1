import PolicyGraph.Tree

/-!
# Topologies

Where a network segment is deployed. A resolver is whatever decides that; a topology is a table of the
hosts that serve segments, and a segment without a host is left for the deployment to place.
-/

namespace PolicyGraph

/-- Where a graph is deployed. -/
inductive Location
  | segment (segment : Int)
  | host (segment : Int) (host : String)
  deriving DecidableEq, Repr, Inhabited

namespace Location

/-- The segment that the location belongs to. -/
def segmentId : Location → Int
  | .segment n => n
  | .host n _ => n

def describe : Location → String
  | .segment n => "segment " ++ toString n
  | .host n name => name ++ " (segment " ++ toString n ++ ")"

def toTree : Location → Tree
  | .segment n => .object [("type", .text "segment"), ("segment", .integer n)]
  | .host n name => .object [("type", .text "host"), ("segment", .integer n), ("host", .text name)]

end Location

/-- Decides on the location of each segment. -/
abbrev Resolver := Int → Location

/-- Segments with their hosts, in increasing order of segments. -/
structure Topology where
  hosts : List (Int × String) := []
  deriving DecidableEq, Repr, Inhabited

namespace Topology

def empty : Topology := {}

/-- Puts an entry in its place, where it replaces one for the same segment. -/
def insertSorted (segment : Int) (host : String) : List (Int × String) → List (Int × String)
  | [] => [(segment, host)]
  | (s, h) :: rest =>
    if segment < s then (segment, host) :: (s, h) :: rest
    else if segment = s then (segment, host) :: rest
    else (s, h) :: insertSorted segment host rest

/-- Lets a host serve a segment, in place of an earlier one. -/
def insert (t : Topology) (segment : Int) (host : String) : Topology :=
  ⟨insertSorted segment host t.hosts⟩

/-- The topology with these entries, of two for one segment the later. -/
def ofList (entries : List (Int × String)) : Topology :=
  entries.foldl (fun t (segment, host) => t.insert segment host) empty

def size (t : Topology) : Nat := t.hosts.length

/-- The host that serves a segment. -/
def host? (t : Topology) (segment : Int) : Option String := t.hosts.lookup segment

/-- The location of a segment: its host if it has one, otherwise the bare segment. -/
def resolve (t : Topology) (segment : Int) : Location :=
  match t.host? segment with
  | some host => .host segment host
  | none => .segment segment

/-- A topology decides by its hosts. -/
instance : Coe Topology Resolver := ⟨resolve⟩

end Topology

end PolicyGraph
