import RemoteCall.Call.Action
import RemoteCall.Proofs.SortedMap

/-!
# What actions keep

An action travels as an object, and everything in it is read back from that object.  It
names a function by what stands before and after the last dot of the function's path,
and a dotted path is put together again from the two.
-/

namespace RemoteCall

namespace Path

theorem eq_of_splitLast? {text before after : List Char}
    (hsplit : splitLast? text = some (before, after)) : text = before ++ '.' :: after := by
  induction text generalizing before with
  | nil => cases hsplit
  | cons c rest ih =>
      rw [splitLast?] at hsplit
      cases hrest : splitLast? rest with
      | some parts =>
          rw [hrest] at hsplit
          cases hsplit
          rw [List.cons_append, ← ih hrest]
      | none =>
          rw [hrest] at hsplit
          by_cases hdot : c = '.'
          · rw [if_pos hdot] at hsplit
            cases hsplit
            rw [hdot, List.nil_append]
          · rw [if_neg hdot] at hsplit
            cases hsplit

/-- Something stands before every dot of a dotted path. -/
theorem ne_nil_of_isValid {path : String} {before after : List Char} (hvalid : isValid path)
    (hpath : path.toList = before ++ '.' :: after) : before ≠ [] := by
  intro hnil
  rw [isValid, hpath, hnil, List.nil_append, splitDots, if_pos rfl, List.all_cons] at hvalid
  cases hvalid

end Path

namespace Action

theorem fullPath_function {path : String} (hvalid : Path.isValid path) (id resultId : Uid)
    (arguments : Arguments) : (function id resultId path arguments).fullPath = path := by
  have hparent : (function id resultId path arguments).path = Path.parent path := rfl
  have hleaf : (function id resultId path arguments).op = Path.leaf path := rfl
  rw [fullPath, hparent, hleaf, Path.parent, Path.leaf]
  cases hsplit : Path.splitLast? path.toList with
  | none => rw [if_pos rfl]
  | some parts =>
      have hpath : path.toList = parts.1 ++ '.' :: parts.2 := Path.eq_of_splitLast? hsplit
      have hbefore : String.ofList parts.1 ≠ "" := by
        intro hempty
        apply Path.ne_nil_of_isValid hvalid hpath
        simpa using congrArg String.toList hempty
      rw [if_neg hbefore]
      apply String.toList_inj.mp
      rw [hpath]
      simp

/-! ## Reading back -/

/-- What the object of an action holds under each of its names. -/
structure Spells (action : Action) (object : ObjectValue) : Prop where
  name : object.name = objectName
  id : object.get? "id" = some (.uid action.id)
  path : object.get? "path" = some (.str action.path)
  op : object.get? "op" = some (.str action.op)
  receiver : object.get? "remote_self" = some (toValue action.receiver)
  args : object.get? "args" = some (.list action.arguments.args)
  kwargs : object.get? "kwargs" = some (.map action.arguments.kwargs.entries)
  type : object.get? "action_type" = some (.str action.type.name)
  resultId : object.get? "result_id" = some (.uid action.resultId)

theorem spells_toObject (action : Action) : action.Spells action.toObject := by
  constructor <;>
    simp [toObject, ObjectOf.get?, Entries.find?_ofList, Entries.find?]

theorem ofName?_name (type : ActionType) : ActionType.ofName? type.name = some type := by
  cases type <;> rfl

theorem receiver?_toValue (receiver : Option Uid) :
    receiver? (toValue receiver) = some receiver := by
  cases receiver <;> rfl

theorem kwargs?_entries (kwargs : SortedMap String Value) :
    kwargs? (.map kwargs.entries) = some kwargs := by
  rw [kwargs?, SortedMap.ofList_entries]

theorem Spells.ofValue?_eq {action : Action} {object : ObjectValue}
    (hspells : action.Spells object) : ofValue? (.object object) = some action := by
  have hobject : (Value.object object).asObject? = some object := rfl
  rw [ofValue?, hobject, Option.bind_eq_bind, Option.bind_some, if_pos hspells.name, hspells.id,
    hspells.path, hspells.op, hspells.receiver, hspells.args, hspells.kwargs, hspells.type,
    hspells.resultId]
  -- What is left to read is not of one form for all actions.
  change ((receiver? (toValue action.receiver)).bind fun receiver =>
    (kwargs? (.map action.arguments.kwargs.entries)).bind fun kwargs =>
      (ActionType.ofName? action.type.name).bind fun type =>
        some (⟨action.id, action.path, action.op, receiver, ⟨action.arguments.args, kwargs⟩, type,
          action.resultId⟩ : Action)) = some action
  rw [receiver?_toValue, kwargs?_entries, ofName?_name]
  rfl

/-- An action is read back from the object that it travels as. -/
theorem ofValue?_toValue (action : Action) : ofValue? (toValue action) = some action :=
  action.spells_toObject.ofValue?_eq

end Action

end RemoteCall
