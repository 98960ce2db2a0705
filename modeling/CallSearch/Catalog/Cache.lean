import CallSearch.Catalog.Build
import CallSearch.TimedCache

namespace CallSearch

abbrev Sampler := String → Int → Option (List Json)

structure CatalogCache where
  sampleSize : Int := 500
  lifetime : Number := .int 300
  cache : TimedCache (String × Int) Catalog := {}

namespace CatalogCache

/-- What reading a catalog gives: the catalog, the sample that was asked for if one was, and the
catalogs that are kept from then on. -/
structure Outcome where
  catalog : Catalog
  asked : Option (String × Int)
  after : CatalogCache

def sizeOf (d : CatalogCache) : Option Int → Int
  | some size => if size = 0 then d.sampleSize else size
  | none => d.sampleSize

def sample (d : CatalogCache) (sampler : Sampler) (now : Number) (agent : String) (size : Int) :
    Outcome :=
  match sampler agent size with
  | none => ⟨[], some (agent, size), d⟩
  | some records =>
    let catalog := Catalog.build records
    ⟨catalog, some (agent, size), { d with cache := d.cache.put (agent, size) catalog now }⟩

def read (d : CatalogCache) (sampler : Sampler) (now : Number) (agent : String)
    (size : Option Int) (force : Bool) : Outcome :=
  let size := d.sizeOf size
  match if force then none else d.cache.fresh? d.lifetime now (agent, size) with
  | some catalog => ⟨catalog, none, d⟩
  | none => d.sample sampler now agent size

def forget (d : CatalogCache) (agent : Option String) : CatalogCache :=
  { d with cache := d.cache.remove fun key => agent.all (· == key.1) }

end CatalogCache

end CallSearch
