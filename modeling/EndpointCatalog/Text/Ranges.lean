namespace EndpointCatalog.Text

abbrev Ranges := List (Nat × Nat)

namespace Ranges

def holds (ranges : Ranges) (c : Char) : Bool :=
  ranges.any fun r => r.1 ≤ c.toNat && c.toNat ≤ r.2

end Ranges

end EndpointCatalog.Text
