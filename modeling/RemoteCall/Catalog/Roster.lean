import RemoteCall.Catalog.Authority

/-!
# A roster

An authority held in memory.  Operations are offered from a least role on,
library functions to everyone, and user code to its owner.
-/

namespace RemoteCall

/-- The roles of callers and what is offered to them. -/
structure Roster where
  /-- Callers with their roles, the latest grant first. -/
  roles : List (VerifyKey × Role)
  /-- Operations with the least role that may see them. -/
  services : SortedMap String (Role × ServiceConfig)
  libs : SortedMap String LibConfig
  /-- User code with its owners, in the order in which it was handed in. -/
  userCode : List (VerifyKey × UserCode)
  deriving Inhabited

namespace Roster

def empty : Roster := ⟨[], .empty, .empty, []⟩

/-- Give a caller a role in the place of the one it had. -/
def grant (roster : Roster) (caller : VerifyKey) (role : Role) : Roster :=
  { roster with roles := (caller, role) :: roster.roles.filter fun entry => entry.1 != caller }

/-- Offer an operation to callers of at least the given role. -/
def addService (roster : Roster) (path : String) (least : Role) (config : ServiceConfig) :
    Roster :=
  { roster with services := roster.services.insert path (least, config) }

def addLib (roster : Roster) (path : String) (config : LibConfig) : Roster :=
  { roster with libs := roster.libs.insert path config }

def addUserCode (roster : Roster) (owner : VerifyKey) (code : UserCode) : Roster :=
  { roster with userCode := roster.userCode ++ [(owner, code)] }

def role? (roster : Roster) (caller : VerifyKey) : Option Role :=
  (roster.roles.find? fun entry => entry.1 == caller).map Prod.snd

/-- The operations that a role may see. -/
def visibleTo (roster : Roster) (role : Role) : SortedMap String ServiceConfig :=
  (roster.services.filter fun _ offer => role.atLeast offer.1).mapValues fun _ offer => offer.2

def codeOf (roster : Roster) (owner : VerifyKey) : List UserCode :=
  (roster.userCode.filter fun entry => entry.1 == owner).map Prod.snd

def authority (roster : Roster) : Authority where
  roleOf caller :=
    match roster.role? caller with
    | some role => .ok role
    | none => .error (.unknownCaller (toString caller))
  services role := .ok (roster.visibleTo role)
  libs _ := .ok roster.libs
  userCode caller := .ok (roster.codeOf caller)

end Roster

end RemoteCall
