import Cppnetool.ProxyServer
/-!
# Close notifications

Each close by a peer is told to one session. It is told to the right one as
long as no connection is closed after a later one was accepted.
-/
open Lib

namespace Cppnetool.Proxy

variable {name : String} {s s' : St} {a : Act}

/-- The session that is told of a close is there, and is the one of the
connection that is closed. -/
def Right (s : St) : Prop := ∀ e ∈ s.notified, e.alive = true ∧ e.session = e.conn

instance : Decidable (Right s) := inferInstanceAs (Decidable (∀ e ∈ s.notified, e.alive = true ∧ e.session = e.conn))

/-- What its peer closes is the connection that was accepted last. -/
def Newest (s : St) : Act → Prop
  | .clientClose c => c + 1 = s.server.nextConnId
  | _ => True

instance (s : St) : ∀ a, Decidable (Newest s a)
  | .clientClose c => inferInstanceAs (Decidable (c + 1 = s.server.nextConnId))
  | .tick _ | .newConnection _ | .clientMessage .. | .connectorEvent .. | .upstreamMessage .. | .upstreamClose ..
  | .timers .. | .expire _ => .isTrue trivial

theorem Right.step (R : Right s) (h : s'.notified = s.notified ++ notices name s a)
    (hn : ∀ e ∈ notices name s a, e.alive = true ∧ e.session = e.conn) : Right s' := by
  intro e he
  rw [h] at he
  rcases List.mem_append.1 he with he | he
  · exact R e he
  · exact hn e he

theorem notices_newest (S : Served name s) (ha : enabled name s a) (hg : Newest s a) :
    ∀ e ∈ notices name s a, e.alive = true ∧ e.session = e.conn := by
  cases a with
  | clientClose c =>
    intro e he
    simp only [notices, ← (show c + 1 = s.server.nextConnId from hg), Nat.add_sub_cancel, List.mem_singleton] at he
    subst he
    exact ⟨Option.isSome_iff_ne_none.2 (S.alive c (S.watched c ha)), rfl⟩
  | _ =>
    intro e he
    cases he

theorem notices_not_newest (S : Served name s) (ha : enabled name s a) (hg : ¬ Newest s a) :
    ∃ e ∈ notices name s a, e.session ≠ e.conn := by
  cases a with
  | clientClose c =>
    have hc := S.fresh c (S.watched c ha)
    refine ⟨_, List.mem_singleton_self _, fun he => hg ?_⟩
    have he : s.server.nextConnId - 1 = c := he
    rw [Newest, ← he]
    exact Nat.sub_add_cancel (Nat.one_le_of_lt hc)
  | _ => exact absurd trivial hg

/-- Throughout a run the session that is told of a close is alive and the one
of that connection, exactly when every connection that its peer closes is the
one that was accepted last. -/
theorem close_notices_iff {tr : List (St × Act)} (h : Run (machine name) tr s) :
    (∀ t, Visited tr s t → Right t) ↔ Meets Newest tr := by
  refine h.throughout_iff (fun t => Served name t ∧ Right t) Right Newest ⟨served_init, fun _ h => by cases h⟩
    (fun _ hi => hi.2) ?_ ?_
  · rintro t a t' ⟨S, R⟩ ha hg hx
    obtain ⟨S', hn⟩ := step_served S ha hx
    exact ⟨S', R.step hn (notices_newest S ha hg)⟩
  · rintro t a t' ⟨S, -⟩ ha hg hx R'
    obtain ⟨-, hn⟩ := step_served S ha hx
    obtain ⟨e, he, hne⟩ := notices_not_newest S ha hg
    exact hne (R' e (by rw [hn]; exact List.mem_append_right _ he)).2

/-- Three connections; the second and the third are closed while they are the newest. -/
theorem close_notices_iff_newest : ∃ tr s, Run (machine "0.0.0.0:8000") tr s ∧ Open s 1 ∧
    s.notified = [⟨2, 2, true⟩, ⟨3, 3, true⟩] ∧ ∀ t, Visited tr s t → Right t := by
  obtain ⟨r, hr, h1, h2, hG⟩ : ∃ r ∈ (machine "0.0.0.0:8000").play (machine "0.0.0.0:8000").init
      [.newConnection .EINPROGRESS, .newConnection .EINPROGRESS, .clientClose 2, .newConnection .ECONNREFUSED,
        .clientClose 3],
      Open r.2 1 ∧ r.2.notified = [⟨2, 2, true⟩, ⟨3, 3, true⟩] ∧ Meets Newest r.1 := by decide +kernel
  have hrun := Machine.play_steps hr
  exact ⟨r.1, r.2, hrun, h1, h2, (close_notices_iff hrun).2 hG⟩

/-- The first connection is closed after the second was accepted: the second
session is told, also when it has been destroyed. -/
theorem older_close_told_newest :
    (∃ tr s, Run (machine "0.0.0.0:8000") tr s ∧ s.notified = [⟨1, 2, true⟩] ∧ ¬ Right s) ∧
    (∃ tr s, Run (machine "0.0.0.0:8000") tr s ∧ s.notified = [⟨1, 2, false⟩] ∧ ¬ Right s) := by
  constructor
  · obtain ⟨r, hr, h⟩ : ∃ r ∈ (machine "0.0.0.0:8000").play (machine "0.0.0.0:8000").init
        [.newConnection .EINPROGRESS, .newConnection .EINPROGRESS, .clientClose 1],
        r.2.notified = [⟨1, 2, true⟩] ∧ ¬ Right r.2 := by decide +kernel
    exact ⟨r.1, r.2, Machine.play_steps hr, h⟩
  · obtain ⟨r, hr, h⟩ : ∃ r ∈ (machine "0.0.0.0:8000").play (machine "0.0.0.0:8000").init
        [.newConnection .EINPROGRESS, .newConnection .EINPROGRESS, .connectorEvent 2 0 false true 0 false,
          .tick 6000001, .expire 2, .clientClose 1],
        r.2.notified = [⟨1, 2, false⟩] ∧ ¬ Right r.2 := by decide +kernel
    exact ⟨r.1, r.2, Machine.play_steps hr, h⟩

end Cppnetool.Proxy
