import BlobStorage.Proofs.Ordered
import BlobStorage.Store.Memory
import Mathlib.Logic.Function.Basic

-- A catalog as a map: what is found under a name after each change, and which names there are.
namespace BlobStorage.Memory.Catalog

variable (catalog : Catalog)

theorem content?_put (key other : String) (content : Bytes) :
    (catalog.put key content).content? other =
      if other = key then some content else catalog.content? other :=
  Ordered.find?_update catalog.ascending key other fun _ => content

theorem content?_erase (key other : String) :
    (catalog.erase key).content? other = if other = key then none else catalog.content? other :=
  Ordered.find?_erase catalog.entries key other

theorem content?_put_eq (key : String) (content : Bytes) :
    (catalog.put key content).content? = Function.update catalog.content? key (some content) := by
  funext other
  rw [content?_put, Function.update_apply]

theorem content?_erase_eq (key : String) :
    (catalog.erase key).content? = Function.update catalog.content? key none := by
  funext other
  rw [content?_erase, Function.update_apply]

theorem mem_keys {key : String} : key ∈ catalog.keys ↔ (catalog.content? key).isSome := by
  rw [content?, Ordered.find?, List.lookup_isSome_iff, keys, List.mem_map]
  constructor
  · rintro ⟨e, he, rfl⟩
    exact ⟨e, he, beq_self_eq_true e.1⟩
  · rintro ⟨e, he, hkey⟩
    exact ⟨e, he, (beq_iff_eq.mp hkey).symm⟩

theorem keys_ascending : catalog.keys.Pairwise (· < ·) :=
  List.pairwise_map.mpr catalog.ascending

theorem mem_keysUnder {under key : String} :
    key ∈ catalog.keysUnder under ↔
      (catalog.content? key).isSome ∧ under.toList <+: key.toList := by
  rw [keysUnder, List.mem_filter, mem_keys, List.isPrefixOf_iff_prefix]

theorem keysUnder_ascending (under : String) : (catalog.keysUnder under).Pairwise (· < ·) :=
  catalog.keys_ascending.filter _

theorem length_keysUnder (under : String) :
    (catalog.keysUnder under).length ≤ catalog.keys.length :=
  List.length_filter_le _ _

end BlobStorage.Memory.Catalog
