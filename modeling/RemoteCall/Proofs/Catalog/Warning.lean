import RemoteCall.Catalog.Authority
import RemoteCall.Proofs.Text.Replace

/-!
# Warnings that are filled in

The places of a warning are filled one kind after the other, and yet as if all at once.
Every place gives the role or the service's name, whatever stands around it, and a text
without places is shown as it is.  These rules leave one text for each template: what was
filled in is never looked at again, and together with what stands beside it it makes no
place.  The names of roles are the reason: they have no braces, and they are no part of the
name between the braces of the second place.
-/

namespace RemoteCall

open Text.Replace (Braceless braced replaceFrom)

/-- What it is to fill the places of any template at once, for the one who is about to see
the warning. -/
structure WarningContext.Fills (context : WarningContext) (fill : String → String) : Prop where
  /-- Where the role has a place, its name is shown between what comes before and after. -/
  role : ∀ before after, fill (before ++ WarningTemplate.rolePlace ++ after) =
    fill before ++ toString context.role ++ fill after
  /-- Where the service has a place, its name is shown between what comes before and
  after. -/
  service : ∀ before after, fill (before ++ WarningTemplate.servicePlace ++ after) =
    fill before ++ context.serviceName ++ fill after
  /-- Where there is no place, nothing is changed. -/
  rest : ∀ template : String,
    ¬ WarningTemplate.rolePlace.toList <:+: template.toList →
      ¬ WarningTemplate.servicePlace.toList <:+: template.toList → fill template = template

namespace WarningTemplate

variable {context : WarningContext}

/-! ## Both passes -/

theorem toList_rolePlace : rolePlace.toList = braced "role".toList := rfl

theorem toList_servicePlace : servicePlace.toList = braced "service".toList := rfl

theorem braceless_role : Braceless "role".toList := by decide

theorem braceless_service : Braceless "service".toList := by decide

theorem braceless_name (role : Role) : Braceless role.name.toList := by
  cases role <;> decide

/-- No name of a role is part of the other place's name. -/
theorem not_infix_service (role : Role) : ¬ role.name.toList <:+: "service".toList := by
  cases role <;> decide

/-- The text of a template for the role, and then for the service. -/
def filled (context : WarningContext) (template : List Char) : List Char :=
  replaceFrom (braced "service".toList) context.serviceName.toList 0
    (replaceFrom (braced "role".toList) context.role.name.toList 0 template)

theorem message_render (warning : WarningTemplate) (context : WarningContext) :
    (warning.render context).message = String.ofList (filled context warning.template.toList) := by
  have hname : toString context.role = context.role.name := rfl
  rw [render, Text.Replace.replace, Text.Replace.replace, String.toList_ofList, hname,
    toList_rolePlace, toList_servicePlace, filled]

theorem filled_role (left right : List Char) :
    filled context (left ++ braced "role".toList ++ right) =
      filled context left ++ context.role.name.toList ++ filled context right := by
  rw [filled, Text.Replace.replaceFrom_braced braceless_role,
    Text.Replace.replaceFrom_inner (braceless_name context.role) (not_infix_service context.role)]
  rfl

theorem filled_service (left right : List Char) :
    filled context (left ++ braced "service".toList ++ right) =
      filled context left ++ context.serviceName.toList ++ filled context right := by
  have hother : ¬ braced "role".toList <:+: braced "service".toList := by decide
  rw [filled, Text.Replace.replaceFrom_braced_of_ne braceless_role hother,
    Text.Replace.replaceFrom_braced braceless_service]
  rfl

theorem filled_rest {template : List Char} (hrole : ¬ braced "role".toList <:+: template)
    (hservice : ¬ braced "service".toList <:+: template) : filled context template = template := by
  rw [filled, Text.Replace.replaceFrom_of_not_infix hrole,
    Text.Replace.replaceFrom_of_not_infix hservice]

end WarningTemplate

namespace WarningContext

variable {context : WarningContext}

open WarningTemplate (filled rolePlace servicePlace)

theorem fills_filled (context : WarningContext) :
    context.Fills fun template => String.ofList (filled context template.toList) := by
  have hplace : ∀ before place after : String,
      (before ++ place ++ after).toList = before.toList ++ place.toList ++ after.toList := by
    intro before place after
    rw [String.toList_append, String.toList_append]
  constructor
  · intro before after
    rw [hplace, WarningTemplate.toList_rolePlace, WarningTemplate.filled_role,
      String.ofList_append, String.ofList_append, String.ofList_toList]
    rfl
  · intro before after
    rw [hplace, WarningTemplate.toList_servicePlace, WarningTemplate.filled_service,
      String.ofList_append, String.ofList_append, String.ofList_toList]
  · intro template hrole hservice
    rw [WarningTemplate.filled_rest hrole hservice, String.ofList_toList]

theorem exists_eq_append_of_infix {part text : String} (hwithin : part.toList <:+: text.toList) :
    ∃ before after : String, text = before ++ part ++ after := by
  obtain ⟨before, after, htext⟩ := hwithin
  refine ⟨String.ofList before, String.ofList after, String.toList_inj.mp ?_⟩
  rw [← htext, String.toList_append, String.toList_append, String.toList_ofList,
    String.toList_ofList]

/-- The rules leave one text for each template. -/
theorem Fills.eq {fill fill' : String → String} (hfill : context.Fills fill)
    (hfill' : context.Fills fill') (template : String) : fill template = fill' template := by
  induction hlength : template.length using Nat.strongRecOn generalizing template with
  | _ length ih =>
      by_cases hrole : rolePlace.toList <:+: template.toList
      · obtain ⟨before, after, rfl⟩ := exists_eq_append_of_infix hrole
        have hplace : rolePlace.length = 6 := rfl
        simp only [String.length_append, hplace] at hlength
        rw [hfill.role, hfill'.role, ih before.length (by omega) before rfl,
          ih after.length (by omega) after rfl]
      by_cases hservice : servicePlace.toList <:+: template.toList
      · obtain ⟨before, after, rfl⟩ := exists_eq_append_of_infix hservice
        have hplace : servicePlace.length = 9 := rfl
        simp only [String.length_append, hplace] at hlength
        rw [hfill.service, hfill'.service, ih before.length (by omega) before rfl,
          ih after.length (by omega) after rfl]
      rw [hfill.rest template hrole hservice, hfill'.rest template hrole hservice]

/-- Warnings are rendered by filling all places at once: what shows their texts is what
follows the rules for that, and nothing else is. -/
theorem fills_iff_render (context : WarningContext) (fill : String → String) :
    context.Fills fill ↔
      ∀ warning : WarningTemplate, fill warning.template = (warning.render context).message := by
  constructor
  · intro hfill warning
    rw [WarningTemplate.message_render]
    exact hfill.eq context.fills_filled warning.template
  · intro hrender
    have hfilled : fill = fun template => String.ofList (filled context template.toList) := by
      funext template
      exact (hrender ⟨template, false⟩).trans (WarningTemplate.message_render _ _)
    rw [hfilled]
    exact context.fills_filled

/-- A service may have the name of a place, and names may be shown within braces. -/
example : (WarningTemplate.render
      ⟨"\x7b\x7brole\x7d: \x7bservice\x7d, \x7bser\x7brole\x7dvice\x7d", true⟩
      ⟨.admin, "\x7brole\x7d", true⟩).message =
    "\x7badmin: \x7brole\x7d, \x7bseradminvice\x7d" := by
  decide +kernel

end WarningContext

end RemoteCall
