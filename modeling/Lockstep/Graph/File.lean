import Lockstep.Graph.Basic
import Lockstep.Json.Record
set_option autoImplicit false

/-!
# Graph files

A graph is written as a record with the field `nodes`, an array of records with
the fields `id`, `labels` and `properties`, all of which may be left out.  The
numbers written in a file are kept with its nodes; the graph made of the file
numbers them anew in their order.
-/

namespace Lockstep.GraphFile

/-- Arrays and objects around the properties of a node: the graph, its nodes,
the node and the properties themselves. -/
def propertiesDepth : Nat := 4

/-- Read a node. -/
def node? (document : Json.Document) : Option Node := do
  let fields ← document.fields? ["id", "labels", "properties"]
  match fields with
  | [id, labels, properties] =>
    return {
      id := ← Json.orDefault 0 (Json.Document.nat? 0xFFFFFFFFFFFFFFFF) id
      labels := ← Json.orDefault [] Json.Document.strings? labels
      properties :=
        ← Json.orDefault [] (Json.Document.map? (Json.maxDepth - propertiesDepth))
        properties }
  | _ => none

/-- Read the nodes of a graph file. -/
def nodes? (text : String) : Option (List Node) := do
  let document ← Json.Document.read? text
  let fields ← document.fields? ["nodes"]
  match fields with
  | [some (.array items)] => items.mapM node?
  | _ => none

/-- The graph of the nodes of a file. -/
def toGraph (nodes : List Node) : Graph :=
  Graph.ofNodes (nodes.map fun node => (node.labels, node.properties))

/-- A node as it is written. -/
def nodeValue (node : Node) : Value :=
  .ofFields [
    ("id", .nat node.id),
    ("labels", .array (node.labels.map .string)),
    ("properties", .object node.properties)]

/-- The file of nodes. -/
def toValue (nodes : List Node) : Value :=
  .ofFields [("nodes", .array (nodes.map nodeValue))]

end Lockstep.GraphFile
