import Crosstab.Schema
import Crosstab.Text.UpperCase

/-!
# Catalogs

The schemas of the tables that are known, by table name. Names that have the same upper case are one
name; the spelling that was given last is the one that is listed.
-/

namespace Crosstab

/-- A known table. -/
structure CatalogEntry where
  name : String
  schema : Schema
  deriving DecidableEq

/-- The known tables by the upper case of their names. -/
structure Catalog where
  entries : OrderedMap String CatalogEntry

namespace Catalog

/-- What spellings of one name have in common. -/
def key (name : String) : String := String.ofList (Text.upperCase name)

def empty : Catalog := ⟨.empty⟩

/-- Makes a table known, in place of one with the same name. -/
def replace (c : Catalog) (name : String) (schema : Schema) : Catalog :=
  ⟨c.entries.insert (key name) ⟨name, schema⟩⟩

def get? (c : Catalog) (name : String) : Option CatalogEntry := c.entries.get? (key name)

/-- The names of the known tables in order. -/
def names (c : Catalog) : List String :=
  (c.entries.entries.map fun e => e.2.name).mergeSort fun a b => decide (a ≤ b)

end Catalog

end Crosstab
