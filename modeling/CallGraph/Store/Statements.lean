import CallGraph.Store.Tables

/-! The statements that define the four tables of a stored graph. -/
namespace CallGraph.Statements

/-- Lines between two line feeds. -/
private def block (lines : List String) : String :=
  "\n" ++ String.join (lines.map (· ++ "\n"))

/-- Removes the tables, those that refer to others first. -/
def drop : String :=
  block <| Table.removalOrder.map fun table => "DROP TABLE IF EXISTS " ++ table.name ++ ";"

/-- Creates the tables and indices that are missing. -/
def schema : String :=
  block
    ["CREATE TABLE IF NOT EXISTS method (",
      "    id INTEGER PRIMARY KEY,",
      "    sig TEXT NOT NULL UNIQUE,",
      "    name TEXT NOT NULL,",
      "    class TEXT NOT NULL,",
      "    package TEXT NOT NULL",
      ");",
      "",
      "CREATE TABLE IF NOT EXISTS class (",
      "    id INTEGER PRIMARY KEY,",
      "    name TEXT NOT NULL,",
      "    package TEXT NOT NULL,",
      "    UNIQUE (name, package)",
      ");",
      "",
      "CREATE TABLE IF NOT EXISTS call (",
      "    src INTEGER NOT NULL REFERENCES method(id),",
      "    tgt INTEGER NOT NULL REFERENCES method(id),",
      "    kind TEXT NOT NULL,",
      "    PRIMARY KEY (src, tgt, kind)",
      ") WITHOUT ROWID;",
      "",
      "CREATE TABLE IF NOT EXISTS depends_on (",
      "    src INTEGER NOT NULL REFERENCES class(id),",
      "    tgt INTEGER NOT NULL REFERENCES class(id),",
      "    PRIMARY KEY (src, tgt)",
      ") WITHOUT ROWID;",
      "",
      "CREATE INDEX IF NOT EXISTS method_name_index ON method(name);",
      "CREATE INDEX IF NOT EXISTS method_class_index ON method(class);",
      "CREATE INDEX IF NOT EXISTS method_package_index ON method(package);",
      "CREATE INDEX IF NOT EXISTS class_name_index ON class(name);",
      "CREATE INDEX IF NOT EXISTS class_package_index ON class(package);"]

end CallGraph.Statements
