import CallGraph.Method

/-! The queries that keep a call graph on a graph server. -/
namespace CallGraph.Remote

structure Query where
  text : String
  parameters : List (String × String)
  deriving DecidableEq, Repr

namespace Query

def plain (text : String) : Query :=
  ⟨text, []⟩

def delete : List String :=
  ["MATCH (c:Class) DETACH DELETE c", "MATCH (m:Method) DETACH DELETE m"]

def schema : List String :=
  ["CREATE CONSTRAINT unique_method_sig IF NOT EXISTS FOR (m:Method) REQUIRE (m.sig) IS UNIQUE",
    "CREATE CONSTRAINT unique_class_def IF NOT EXISTS FOR (c:Class) REQUIRE (c.name, c.package) " ++
      "IS UNIQUE",
    "CREATE TEXT INDEX method_sig_index IF NOT EXISTS FOR (m:Method) ON (m.sig)",
    "CREATE TEXT INDEX method_name_index IF NOT EXISTS FOR (m:Method) ON (m.name)",
    "CREATE TEXT INDEX method_class_index IF NOT EXISTS FOR (m:Method) ON (m.class)",
    "CREATE TEXT INDEX method_package_index IF NOT EXISTS FOR (m:Method) ON (m.package)",
    "CREATE TEXT INDEX class_name_index IF NOT EXISTS FOR (c:Class) ON (c.name)",
    "CREATE TEXT INDEX class_package_index IF NOT EXISTS FOR (c:Class) ON (c.package)"]

private def lines (texts : List String) : String :=
  String.intercalate "\n" texts

/-- Add both methods of an edge and the call between them. -/
def addEdge : String :=
  lines
    ["MERGE (src:Method \x7bsig: $src_sig\x7d)",
      "ON CREATE SET src.name = $src_name, src.class = $src_class, src.package = $src_package",
      "MERGE (tgt:Method \x7bsig: $tgt_sig\x7d)",
      "ON CREATE SET tgt.name = $tgt_name, tgt.class = $tgt_class, tgt.package = $tgt_package",
      "MERGE (src)-[:CALL \x7bkind: $kind\x7d]->(tgt)"]

/-- Add the class layer of the stored calls. -/
def classDependency : String :=
  lines
    ["MATCH (src:Method)-[:CALL]->(tgt:Method)",
      "MERGE (srcClass:Class \x7bname: src.class, package: src.package\x7d)",
      "MERGE (tgtClass:Class \x7bname: tgt.class, package: tgt.package\x7d)",
      "MERGE (srcClass)-[:DEPENDS_ON]->(tgtClass)"]

def counts : List String :=
  ["MATCH (m:Method) RETURN count(m) AS n",
    "MATCH (:Method)-[r:CALL]->(:Method) RETURN count(r) AS n",
    "MATCH (c:Class) RETURN count(c) AS n",
    "MATCH (:Class)-[d:DEPENDS_ON]->(:Class) RETURN count(d) AS n"]

def properties : String :=
  "MATCH (m:Method \x7bsig: $sig\x7d) RETURN m.name AS name, m.class AS class, " ++
    "m.package AS package"

def classDependencies : String :=
  lines
    ["MATCH (s:Class)-[:DEPENDS_ON]->(t:Class)",
      "RETURN s.name AS src_name, s.package AS src_package, t.name AS tgt_name, " ++
        "t.package AS tgt_package",
      "ORDER BY src_name, src_package, tgt_name, tgt_package"]

def addCall (source target : Method) (kind : String) : Query :=
  ⟨addEdge,
    [("src_sig", source.signature), ("src_name", source.name), ("src_class", source.className),
      ("src_package", source.package), ("tgt_sig", target.signature), ("tgt_name", target.name),
      ("tgt_class", target.className), ("tgt_package", target.package), ("kind", kind)]⟩

end Query
end CallGraph.Remote
