import RemoteCall.Json.Reader

/-!
# Roles

What a caller may do on a service grows with its role.
-/

namespace RemoteCall

/-- The role of a caller on a service, from the lowest to the highest. -/
inductive Role where
  | none
  | guest
  | dataScientist
  | dataOwner
  | admin
  deriving DecidableEq, Repr

namespace Role

/-- The place of a role among all roles. -/
def rank : Role → Nat
  | .none => 0
  | .guest => 1
  | .dataScientist => 2
  | .dataOwner => 3
  | .admin => 4

instance : Ord Role := ⟨fun x y => compare x.rank y.rank⟩

/-- Whether a role is at least `least`. -/
def atLeast (role least : Role) : Bool := least.rank ≤ role.rank

def name : Role → String
  | .none => "none"
  | .guest => "guest"
  | .dataScientist => "data_scientist"
  | .dataOwner => "data_owner"
  | .admin => "admin"

instance : ToString Role := ⟨name⟩

def ofName? : String → Option Role
  | "none" => some .none
  | "guest" => some .guest
  | "data_scientist" => some .dataScientist
  | "data_owner" => some .dataOwner
  | "admin" => some .admin
  | _ => Option.none

instance : Json.Wire Role where
  toJson role := .str role.name
  ofJson? value := (Json.name? false value).bind ofName?

end Role

end RemoteCall
