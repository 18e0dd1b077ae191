import Cppnetool.PollerTable
/-!
# Dispatch

What `poll(2)` may answer for the slots of a poller, and what
`fillActiveChannels` makes of the answer.
-/
open Lib

namespace Cppnetool.Poller

variable {Ch : Type} [DecidableEq Ch] {fd : Ch → Int} {s : Sys Ch}

/-- The slots after `poll(2)` wrote `revents`. -/
def polled (pollfds : List PollFd) (revents : List Nat) : List PollFd :=
  pollfds.zipWith (fun p r => { p with revents := r }) revents

/-- The answers `poll(2)` can give: events only on slots it does not ignore,
and the number of slots with events. -/
structure PollResult (pollfds : List PollFd) (revents : List Nat) (numEvents : Nat) : Prop where
  length : revents.length = pollfds.length
  watched : ∀ (i : Nat) p r, pollfds[i]? = some p → revents[i]? = some r → 0 < r → 0 ≤ p.fd
  count : numEvents = revents.countP (0 < ·)

/-- The slots with events, each with its index, in slot order. -/
def ready (revents : List Nat) (k : Nat) : List (Int × Nat) :=
  ((revents.zipIdx k).filter (0 < ·.1)).map fun p => ((p.2 : Int), p.1)

theorem ready_cons_zero (rs : List Nat) (k : Nat) : ready (0 :: rs) k = ready rs (k + 1) := by
  simp [ready]

theorem ready_cons_pos {r : Nat} (h : 0 < r) (rs : List Nat) (k : Nat) :
    ready (r :: rs) k = ((k : Int), r) :: ready rs (k + 1) := by
  simp [ready, h]

theorem ready_nodup (rs : List Nat) (k : Nat) : ((ready rs k).map Prod.fst).Nodup := by
  have h1 : ((rs.zipIdx k).map Prod.snd).Nodup := by
    rw [List.zipIdx_map_snd]; exact List.nodup_range'
  have h2 : (((rs.zipIdx k).filter (0 < ·.1)).map Prod.snd).Nodup :=
    h1.sublist (List.filter_sublist.map _)
  have h3 : (ready rs k).map Prod.fst =
      (((rs.zipIdx k).filter (0 < ·.1)).map Prod.snd).map (fun n : Nat => (n : Int)) := by
    simp [ready]
  rw [h3]
  exact h2.map fun a b hab => Int.ofNat_inj.1 hab

theorem fill_zero (channels : Map Int Ch) (ps : List PollFd) (chan : Ch → Channel) (act : List Ch) :
    fillActiveChannels channels ps 0 chan act = some (chan, act) := by
  cases ps <;> simp [fillActiveChannels]

/-- Over a suffix of the slots that starts at index `k`, where every slot with
events is the slot of the channel the map has for it. -/
theorem fill_spec (channels : Map Int Ch) (ps : List PollFd) (k : Nat) (chan : Ch → Channel) (act : List Ch)
    (h : ∀ j p, ps[j]? = some p → 0 < p.revents →
      ∃ c, channels.find p.fd = some c ∧ (chan c).fd = p.fd ∧ (chan c).index = ((k + j : Nat) : Int)) :
    ∃ chan' new,
      fillActiveChannels channels ps (ps.countP (0 < ·.revents)) chan act = some (chan', act ++ new) ∧
      new.map (fun c => ((chan c).index, (chan' c).revents)) = ready (ps.map (·.revents)) k ∧
      (∀ c ∈ new, channels.find (chan c).fd = some c) ∧
      (∀ c, chan' c = { chan c with revents := (chan' c).revents }) ∧
      ∀ c, (chan c).index < k → chan' c = chan c := by
  induction ps generalizing k chan act with
  | nil => exact ⟨chan, [], by simp [fillActiveChannels], rfl, by simp, fun _ => rfl, fun _ _ => rfl⟩
  | cons p ps ih =>
    by_cases hp : 0 < p.revents
    · obtain ⟨c, hfind, hfd, hidx⟩ := h 0 p rfl hp
      set chan₁ := Function.update chan c { chan c with revents := p.revents } with hchan₁
      -- `revents` is all that changes, so the slots behind still find their channels
      have hsame : ∀ d, (chan₁ d).fd = (chan d).fd ∧ (chan₁ d).index = (chan d).index := by
        intro d
        by_cases hd : d = c
        · subst hd; simp [hchan₁]
        · simp [hchan₁, hd]
      obtain ⟨chan', new, hfill, hmap, hreg, honly, hbelow⟩ := ih (k + 1) chan₁ (act ++ [c]) fun j q hq hqr => by
        obtain ⟨d, h1, h2, h3⟩ := h (j + 1) q hq hqr
        exact ⟨d, h1, by rw [(hsame d).1, h2], by rw [(hsame d).2, h3]; congr 1; omega⟩
      have hc : (chan' c).revents = p.revents := by
        rw [hbelow c (by rw [(hsame c).2, hidx]; omega), hchan₁]; simp
      refine ⟨chan', c :: new, ?_, ?_, ?_, ?_, ?_⟩
      · rw [List.countP_cons_of_pos (by simpa using hp), fillActiveChannels, if_pos (by omega), if_pos hp,
          hfind, some_bind, assert_bind hfd, Nat.add_sub_cancel, hfill, List.append_assoc]
        rfl
      · rw [List.map_cons, List.map_cons, ready_cons_pos hp, ← hmap, hidx, hc]
        simp [hsame]
      · intro d hd
        rcases List.mem_cons.1 hd with rfl | hd
        · rw [hfd, hfind]
        · rw [← (hsame d).1]; exact hreg d hd
      · intro d
        rw [honly d]
        by_cases hd : d = c
        · subst hd; simp [hchan₁]
        · simp [hchan₁, hd]
      · intro d hd
        rw [hbelow d (by rw [(hsame d).2]; omega), hchan₁, Function.update_of_ne]
        rintro rfl; rw [hidx] at hd; omega
    -- a slot without events is skipped, and not counted
    · have hz : p.revents = 0 := by omega
      obtain ⟨chan', new, hfill, hmap, hreg, honly, hbelow⟩ := ih (k + 1) chan act fun j q hq hqr => by
        obtain ⟨d, h1, h2, h3⟩ := h (j + 1) q hq hqr
        exact ⟨d, h1, h2, by rw [h3]; congr 1; omega⟩
      refine ⟨chan', new, ?_, ?_, hreg, honly, fun d hd => hbelow d (by omega)⟩
      · rw [List.countP_cons_of_neg (by simpa using hp), ← hfill, fillActiveChannels]
        split
        · rfl
        · rw [show ps.countP (0 < ·.revents) = 0 by omega, fill_zero]
      · rw [List.map_cons, hz, ready_cons_zero, hmap]

section Table
variable (T : Table fd s)
include T

/-- On a sound table the dispatch is exact. -/
theorem Table.dispatch (h0 : ∀ c, 0 ≤ fd c) {rs : List Nat} {numEvents : Nat} (act : List Ch)
    (hr : PollResult s.pollfds rs numEvents) :
    ∃ chan' new,
      fillActiveChannels s.channels (polled s.pollfds rs) numEvents s.chan act = some (chan', act ++ new) ∧
      new.map (fun c => ((s.chan c).index, (chan' c).revents)) = ready rs 0 ∧
      new.Nodup ∧ (∀ c ∈ new, Registered s.toSt c) ∧
      ∀ c, chan' c = { s.chan c with revents := (chan' c).revents } := by
  have hrev : (polled s.pollfds rs).map (·.revents) = rs := by
    rw [polled, List.map_zipWith]
    exact List.ext_getElem (by simp [hr.length]) (by simp)
  have hcount : (polled s.pollfds rs).countP (0 < ·.revents) = numEvents := by
    rw [hr.count, ← hrev, List.countP_map]; rw [hrev]; rfl
  obtain ⟨chan', new, hfill, hmap, hreg, honly, -⟩ :=
    fill_spec s.channels (polled s.pollfds rs) 0 s.chan act fun j p hp hpr => by
      obtain ⟨q, r, hq, hrj, rfl⟩ := List.getElem?_zipWith_eq_some.1 hp
      have hfd0 := hr.watched j q r hq hrj hpr
      obtain ⟨c, hc, hcj⟩ := T.owner j q hq
      obtain ⟨-, q', hq', hqfd⟩ := T.slot c hc
      simp only [St.slot?, hcj, Int.toNat_natCast, hq, Option.some.injEq] at hq'
      subst hq'
      have hqc : q.fd = fd c := by
        rcases hqfd with h | h
        · exact h
        · have := ignored_lt (h0 c); omega
      exact ⟨c, by rw [hqc]; exact T.registered_iff.1 hc, by rw [T.fds, hqc], by rw [hcj]; congr 1; omega⟩
  rw [hcount] at hfill
  rw [hrev] at hmap
  refine ⟨chan', new, hfill, hmap, ?_, hreg, honly⟩
  have hnd := ready_nodup rs 0
  rw [← hmap, List.map_map] at hnd
  exact List.Nodup.of_map _ hnd

end Table

/-- Over every sequence of calls the map, the slots and the indices stay in
step and no assert fails; and for every answer of `poll(2)` in a state
reached, `fillActiveChannels` appends the channels of exactly the slots with
events, in slot order, each once and with its own events. -/
theorem table_sound (hf : Function.Injective fd) (h0 : ∀ c, 0 ≤ fd c) :
    (machine fd).Safe ∧ ∀ tr s, Run (machine fd) tr s →
      s.channels.size = s.pollfds.length ∧
      (∀ c, Registered s.toSt c ↔ 0 ≤ (s.chan c).index ∧ c ∉ s.removed) ∧
      (∀ c, Registered s.toSt c → (s.chan c).index < s.pollfds.length ∧
        ∃ p, s.slot? c = some p ∧ (p.fd = fd c ∨ p.fd = -fd c - 1)) ∧
      (∀ c d, Registered s.toSt c → Registered s.toSt d → (s.chan c).index = (s.chan d).index → c = d) ∧
      ∀ rs numEvents act, PollResult s.pollfds rs numEvents → ∃ chan' new,
        fillActiveChannels s.channels (polled s.pollfds rs) numEvents s.chan act = some (chan', act ++ new) ∧
        new.map (fun c => ((s.chan c).index, (chan' c).revents)) = ready rs 0 ∧
        new.Nodup ∧ ∀ c ∈ new, Registered s.toSt c := by
  refine ⟨Machine.safe_of_inv (Table fd) (table_init fd) (step_table hf h0), ?_⟩
  intro tr s h
  have T := run_table hf h0 h
  refine ⟨T.size, fun c => ⟨fun hc => ⟨(T.slot c hc).1, fun hm => T.gone c hm hc⟩, fun hc => T.fresh c hc.2 hc.1⟩,
    fun c hc => ⟨?_, (T.slot c hc).2⟩, fun c d hc hd => T.index_inj h0 hc hd, ?_⟩
  · have := T.index_lt hc
    have := T.index_eq hc
    omega
  · intro rs n act hr
    obtain ⟨chan', new, h1, h2, h3, h4, -⟩ := T.dispatch h0 act hr
    exact ⟨chan', new, h1, h2, h3, h4⟩

/-- Three channels; the last one's interest is dropped, then the first is
removed, so that a slot in the ignore encoding takes its place. -/
theorem table_sound_swap : ∃ tr s, Run numbered tr s ∧
    s.pollfds = [⟨-3, 0, 0⟩, ⟨1, 3, 0⟩] ∧ s.channels.size = 2 ∧
    ∃ chan' new, fillActiveChannels s.channels (polled s.pollfds [0, 1]) 1 s.chan [] = some (chan', new) ∧
      new.map (fun c => ((s.chan c).index, (chan' c).revents)) = [(1, 1)] := by
  obtain ⟨r, hr, hp⟩ : ∃ r ∈ numbered.play numbered.init
      [.set 0 .enableReading, .set 1 .enableReading, .set 2 .enableReading, .set 2 .disableAll,
        .set 0 .disableAll, .remove 0],
      r.2.pollfds = [⟨-3, 0, 0⟩, ⟨1, 3, 0⟩] := by decide
  have hrun := Machine.play_steps hr
  have hf : Function.Injective (fun n : Nat => (n : Int)) := fun _ _ h => Int.ofNat_inj.1 h
  have h := (table_sound hf fun c => Int.natCast_nonneg c).2 r.1 r.2 hrun
  have hres : PollResult r.2.pollfds [0, 1] 1 := by
    rw [hp]
    refine ⟨rfl, ?_, rfl⟩
    intro i p e hi he h0
    match i, hi, he with
    | 0, _, he => cases he; cases h0
    | 1, hi, _ => cases hi; decide
  obtain ⟨chan', new, hfill, hmap, -⟩ := h.2.2.2.2 [0, 1] 1 [] hres
  exact ⟨r.1, r.2, hrun, hp, by rw [h.1, hp]; rfl, chan', new, hfill, hmap⟩

end Cppnetool.Poller
