import RemoteCall.Proofs.Operation.Call
import RemoteCall.Session.Basic

/-!
# What calls leave of a session

A session shows its catalog and the trees that were built from it, and knows what to
do when it is asked to fetch the catalog anew.  Calls touch none of that themselves:
they draw identifiers, ask the user, append to the trace, leave notices and talk to
the service.  All that can change the view is the refresh that an answer asks for,
which is the last thing that happens in a call.
-/

namespace RemoteCall

variable {ω : Type}

namespace SessionState

variable {before state after : SessionState ω}

/-- Catalog, trees and what is done about a refresh are as they were. -/
structure SameView (before after : SessionState ω) : Prop where
  catalog : after.catalog = before.catalog
  services : after.services = before.services
  libs : after.libs = before.libs
  onRefresh : after.onRefresh = before.onRefresh

namespace SameView

theorem refl (state : SessionState ω) : SameView state state := ⟨rfl, rfl, rfl, rfl⟩

theorem trans (hfirst : SameView before state) (hsecond : SameView state after) :
    SameView before after where
  catalog := hsecond.catalog.trans hfirst.catalog
  services := hsecond.services.trans hfirst.services
  libs := hsecond.libs.trans hfirst.libs
  onRefresh := hsecond.onRefresh.trans hfirst.onRefresh

theorem cached?_eq (hview : SameView before after) (branch : Branch) :
    after.cached? branch = before.cached? branch := by
  cases branch with
  | services => exact hview.services
  | libs => exact hview.libs

end SameView

/-- The trace is as it was, too. -/
structure Noted (before after : SessionState ω) : Prop extends SameView before after where
  trace : after.trace = before.trace

namespace Noted

theorem refl (state : SessionState ω) : Noted state state := ⟨.refl state, rfl⟩

theorem trans (hfirst : Noted before state) (hsecond : Noted state after) :
    Noted before after where
  toSameView := hfirst.toSameView.trans hsecond.toSameView
  trace := hsecond.trace.trans hfirst.trace

end Noted

end SessionState

open SessionState (SameView Noted)

variable {session : Session ω} {function : RemoteFunction} {arguments : Arguments}
  {live after : Live ω}

/-! ## Before a call is sent -/

theorem Live.noted_notify (live : Live ω) (notice : Notice) :
    Noted live.state (live.notify notice).state :=
  ⟨⟨rfl, rfl, rfl, rfl⟩, rfl⟩

theorem Live.noted_freshIds (live : Live ω) : Noted live.state live.freshIds.2.state :=
  ⟨⟨rfl, rfl, rfl, rfl⟩, rfl⟩

theorem Session.noted_ask (session : Session ω) (path message : String) (live : Live ω) :
    Noted live.state (session.dispatcher.confirm path message live).2.state :=
  ⟨⟨rfl, rfl, rfl, rfl⟩, rfl⟩

theorem RemoteFunction.noted_confirm (function : RemoteFunction) (session : Session ω)
    (live : Live ω) :
    Noted live.state (function.confirm session.dispatcher live).2.state := by
  rw [confirm]
  split
  · exact .refl _
  · rename_i warning _
    split
    · exact .refl _
    · split
      · exact live.noted_notify _
      · have hask := session.noted_ask function.path warning.message live
        split
        · rename_i hagreed
          rw [hagreed] at hask
          exact hask
        · rename_i hdeclined
          rw [hdeclined] at hask
          exact hask.trans (Live.noted_notify _ _)

theorem RemoteFunction.sameView_recordAction (session : Session ω) (action : Option Action)
    (live : Live ω) :
    SameView live.state (recordAction session.dispatcher action live).state := by
  cases action <;> exact ⟨rfl, rfl, rfl, rfl⟩

/-- The state that a call comes to before it is sent. -/
def RemoteFunction.Prepared.state {σ : Type} : Prepared σ → σ
  | .ended _ s => s
  | .ready _ s => s

theorem RemoteFunction.sameView_prepare (function : RemoteFunction) (session : Session ω)
    (arguments : Arguments) (live : Live ω) :
    SameView live.state (function.prepare session.dispatcher arguments live).state.state := by
  rw [prepare]
  split
  · exact .refl _
  · have hconfirm : SameView live.state
        (function.confirm session.dispatcher (session.dispatcher.freshIds live).2).2.state :=
      (live.noted_freshIds.trans (function.noted_confirm session _)).toSameView
    dsimp only
    split
    · rename_i hdeclined
      rw [hdeclined] at hconfirm
      exact hconfirm
    · rename_i hagreed
      rw [hagreed] at hconfirm
      exact hconfirm.trans (sameView_recordAction session _ _)

/-! ## Sending it -/

theorem Session.noted_receive (session : Session ω) (path : String)
    (reply : Envelope CallResult) (live : Live ω) :
    Noted live.state (session.receive path reply live).2.state := by
  simp only [receive]
  cases reply.openPayload with
  | mk opened kept =>
      cases session.pinned with
      | none =>
          cases opened with
          | error e => exact live.noted_notify _
          | ok result => exact .refl _
      | some expected =>
          dsimp only
          split
          · cases opened with
            | error e => exact live.noted_notify _
            | ok result => exact .refl _
          · exact live.noted_notify _

theorem Session.noted_dispatch (session : Session ω) (call : Call) (live : Live ω) :
    Noted live.state (session.dispatch call live).2.state := by
  rw [dispatch]
  split
  · exact .refl _
  · split
    · exact ⟨⟨rfl, rfl, rfl, rfl⟩, rfl⟩
    · rename_i world _
      exact .trans ⟨⟨rfl, rfl, rfl, rfl⟩, rfl⟩ (session.noted_receive call.path _ { live with world })

/-! ## The refresh at its end -/

/-- The view is as it was, but for a refresh that is asked for last. -/
def Session.ViewAfter (session : Session ω) (live after : Live ω) : Prop :=
  SameView live.state after.state ∨
    ∃ last : Live ω, SameView live.state last.state ∧ after = session.requestRefresh last

theorem Session.ViewAfter.of_sameView {last : Live ω} (hview : SameView live.state last.state)
    (hafter : session.ViewAfter last after) : session.ViewAfter live after := by
  rcases hafter with hsame | ⟨refreshed, hsame, rfl⟩
  · exact .inl (hview.trans hsame)
  · exact .inr ⟨refreshed, hview.trans hsame, rfl⟩

theorem Session.viewAfter_finish (session : Session ω) (result : CallResult) (live : Live ω) :
    session.ViewAfter live (RemoteFunction.finish session.dispatcher result live).2 := by
  rw [RemoteFunction.finish]
  split
  · exact .inl (.refl _)
  · split
    · exact .inl (.refl _)
    · dsimp only
      split
      · exact .inr ⟨live, .refl _, rfl⟩
      · exact .inl (.refl _)

theorem Session.viewAfter_exchange (session : Session ω) (call : Call) (live : Live ω) :
    session.ViewAfter live (RemoteFunction.exchange session.dispatcher call live).2 := by
  have hdispatch : SameView live.state (session.dispatcher.dispatch call live).2.state :=
    (session.noted_dispatch call live).toSameView
  rw [RemoteFunction.exchange]
  split
  · rename_i hfailed
    rw [hfailed] at hdispatch
    exact .inl hdispatch
  · rename_i hanswered
    rw [hanswered] at hdispatch
    exact .of_sameView hdispatch (session.viewAfter_finish _ _)

theorem Session.viewAfter_call (session : Session ω) (function : RemoteFunction)
    (arguments : Arguments) (live : Live ω) :
    session.ViewAfter live (function.call (some session.dispatcher) arguments live).2 := by
  have hprepare := function.sameView_prepare session arguments live
  rw [RemoteFunction.call_eq_run]
  cases hprepared : function.prepare session.dispatcher arguments live with
  | ended outcome last =>
      rw [hprepared] at hprepare
      exact .inl hprepare
  | ready outgoing last =>
      rw [hprepared] at hprepare
      exact .of_sameView hprepare (session.viewAfter_exchange outgoing.call last)

theorem Session.viewAfter_jobs (session : Session ω) (function : RemoteFunction)
    (live : Live ω) :
    session.ViewAfter live (function.jobs (some session.dispatcher) live).2 := by
  rw [RemoteFunction.jobs]
  split
  · exact .inl (.refl _)
  · exact session.viewAfter_exchange _ live

end RemoteCall
