import Cppnetool.Lib.Iter
import Cppnetool.ProxyServer
/-!
# The sweep of the sessions

`processSession_`, round by round, over any content of `sessionMap_`. Each
round ends in the `it++` of the loop, also where the session of the iterator
has been erased in it.
-/
open Lib

namespace Cppnetool.Proxy

variable {name : String} {s s' : St} {key : String} {k : SessionId} {se : Session}

/-- `serverPair_->second` of the session that has this name. -/
def sessionConn (key : String) : String := String.ofList (key.toList.drop "session ".length)

variable (name)

/-- `sessionMap_.erase`, and the `~Session` that it comes to. -/
def erase (s : St) (key : String) : Option St := do
  let se ← s.sessionMap.find key
  let s ← removeConn name s (sessionConn key)
  let _ ← deleteTcpClient se.tcpClient
  return { s with sessionMap := s.sessionMap.erase key }

/-- The loop before a round: its iterator, what it has visited, and the proxy. -/
structure Loop where
  it : Option String
  visited : List String := []
  proxy : St

/-- A round of the loop. -/
def round (now : Int) (l : Loop) : Option Loop := do
  let key ← l.it
  let se ← l.proxy.sessionMap.find key
  let proxy ← if se.Expired now then erase name l.proxy key else some l.proxy
  let it ← proxy.sessionMap.next key
  return { it, visited := l.visited ++ [key], proxy }

def processSession (s : St) : Machine Loop Unit where
  init := { it := s.sessionMap.first, proxy := s }
  enabled l _ := l.it ≠ none
  exec l _ := round name s.now l

/-- No round uses an iterator whose element is gone, and the loop ends: it has
visited each session once, erased those that are expired, and kept the others. -/
def Sweeps (s : St) : Prop :=
  (processSession name s).Safe ∧ ∃ tr l, Run (processSession name s) tr l ∧ l.it = none ∧
    l.visited.Perm s.sessionMap.keys ∧
    ∀ key, l.proxy.sessionMap.find key = (s.sessionMap.find key).filter fun se => ¬ se.Expired s.now

variable {name}

theorem erase_sessionMap (hx : erase name s key = some s') : s'.sessionMap = s.sessionMap.erase key := by
  obtain ⟨se, -, hx⟩ := Option.bind_eq_some_iff.1 hx
  obtain ⟨t, ht, hx⟩ := Option.bind_eq_some_iff.1 hx
  obtain ⟨-, -, hx⟩ := Option.bind_eq_some_iff.1 hx
  cases hx
  -- the destructor does not come back to `sessionMap_`
  have hmap : t.sessionMap = s.sessionMap := by
    obtain ⟨server, -, ht⟩ := Option.bind_eq_some_iff.1 ht
    split at ht
    · cases ht
      rfl
    · obtain ⟨u, -, ht⟩ := Option.bind_eq_some_iff.1 ht
      cases ht
      rfl
  exact congrArg (AList.erase key) hmap

/-! ## A round -/

variable {now : Int} {l l' : Loop}

/-- The `it++` after an erase is that of an iterator to nothing. -/
theorem round_expired (hit : l.it = some key) (hse : l.proxy.sessionMap.find key = some se) (he : se.Expired now) :
    round name now l = none := by
  simp only [round, hit, hse, Option.bind_eq_bind, Option.bind_some, if_pos he]
  rcases hx : erase name l.proxy key with _ | t
  · rfl
  · rw [Option.bind_some, erase_sessionMap hx, Map.next_erase]
    rfl

theorem round_kept (hit : l.it = some key) (hse : l.proxy.sessionMap.find key = some se) (he : ¬ se.Expired now) :
    round name now l =
      some { it := l.proxy.sessionMap.succ key, visited := l.visited ++ [key], proxy := l.proxy } := by
  simp only [round, hit, hse, Option.bind_eq_bind, Option.bind_some, if_neg he,
    Map.next_eq (Map.mem_keys_of_find hse)]
  rfl

/-! ## The loop -/

/-- The loop as it is before a round: nothing has been erased, and what is
behind the iterator has been visited. -/
structure Sweeping (s : St) (l : Loop) : Prop where
  proxy : l.proxy = s
  once : l.visited.Nodup
  visited : ∀ key, key ∈ l.visited ↔ key ∈ s.sessionMap.keys ∧ Map.Passed l.it key
  it : ∀ key ∈ l.it, key ∈ s.sessionMap.keys
  kept : ∀ key ∈ l.visited, ∀ se, s.sessionMap.find key = some se → ¬ se.Expired s.now

theorem sweeping_init (s : St) : Sweeping s (processSession name s).init where
  proxy := rfl
  once := .nil
  visited key := by
    refine ⟨fun h => absurd h List.not_mem_nil, ?_⟩
    rintro ⟨hk, hp⟩
    exact absurd hp (Map.not_passed_first hk)
  it key h := Map.first_mem h
  kept key h := absurd h List.not_mem_nil

theorem Sweeping.next (h : Sweeping s l) (hit : l.it = some key) (hse : s.sessionMap.find key = some se)
    (he : ¬ se.Expired s.now) :
    Sweeping s { it := s.sessionMap.succ key, visited := l.visited ++ [key], proxy := s } where
  proxy := rfl
  once := by
    refine List.nodup_append.2 ⟨h.once, List.nodup_singleton key, ?_⟩
    intro i hi j hj hij
    rw [List.mem_singleton.1 hj] at hij
    exact absurd (((h.visited i).1 hi).2 key hit) (by rw [hij]; exact lt_irrefl key)
  visited i := by
    rw [List.mem_append, List.mem_singleton, h.visited]
    have hk := Map.mem_keys_of_find hse
    have hp : Map.Passed l.it i ↔ i < key := by simp [Map.Passed, hit]
    rw [hp]
    constructor
    · rintro (⟨hi, hlt⟩ | rfl)
      · exact ⟨hi, (Map.passed_succ hi).2 hlt.le⟩
      · exact ⟨hk, (Map.passed_succ hk).2 le_rfl⟩
    · rintro ⟨hi, hpi⟩
      rcases ((Map.passed_succ hi).1 hpi).lt_or_eq with hlt | rfl
      · exact .inl ⟨hi, hlt⟩
      · exact .inr rfl
  it i hi := (Map.succ_mem hi).1
  kept i hi := by
    rcases List.mem_append.1 hi with hi | hi
    · exact h.kept i hi
    · rw [List.mem_singleton.1 hi, hse]
      rintro _ ⟨⟩
      exact he

/-- A round that comes to its end has kept the session that it was about. -/
theorem round_sweeping (h : Sweeping s l) (hx : round name s.now l = some l') : ∃ key se, l.it = some key ∧
    s.sessionMap.find key = some se ∧ ¬ se.Expired s.now ∧ l'.it = s.sessionMap.succ key ∧ Sweeping s l' := by
  obtain ⟨key, hit, -⟩ := Option.bind_eq_some_iff.1 hx
  obtain ⟨se, hse⟩ := Map.find_of_mem_keys (h.it key hit)
  have hse' : l.proxy.sessionMap.find key = some se := by rw [h.proxy]; exact hse
  by_cases he : se.Expired s.now
  · rw [round_expired hit hse' he] at hx
    cases hx
  · rw [round_kept hit hse' he, h.proxy] at hx
    cases hx
    exact ⟨key, se, hit, hse, he, rfl, h.next hit hse he⟩

theorem sweeping_run {tr : List (Loop × Unit)} (h : Run (processSession name s) tr l) : Sweeping s l :=
  h.inv (Sweeping s) (sweeping_init s) fun _ _ _ hl _ hx => (round_sweeping hl hx).choose_spec.choose_spec.2.2.2.2

/-- At its end the loop has been everywhere. -/
theorem Sweeping.kept_all (h : Sweeping s l) (hit : l.it = none) (hse : s.sessionMap.find key = some se) :
    ¬ se.Expired s.now := by
  refine h.kept key ((h.visited key).2 ⟨Map.mem_keys_of_find hse, ?_⟩) se hse
  intro j hj
  rw [hit] at hj
  cases hj

theorem Sweeping.visited_perm (h : Sweeping s l) (hit : l.it = none) : l.visited.Perm s.sessionMap.keys := by
  refine (List.perm_ext_iff_of_nodup h.once s.sessionMap.keys_nodup).2 fun key => ?_
  rw [h.visited]
  refine ⟨And.left, fun hk => ⟨hk, ?_⟩⟩
  intro j hj
  rw [hit] at hj
  cases hj

/-- A sweep that comes to its end has found nothing to erase. -/
theorem not_expired_of_sweeps (h : Sweeps name s) (hse : s.sessionMap.find key = some se) : ¬ se.Expired s.now := by
  obtain ⟨-, tr, l, hr, hit, -⟩ := h
  exact (sweeping_run hr).kept_all hit hse

theorem sweeps_of_not_expired (he : ∀ key se, s.sessionMap.find key = some se → ¬ se.Expired s.now) :
    Sweeps name s := by
  have hround : ∀ {l key}, Sweeping s l → l.it = some key → ∃ l', round name s.now l = some l' ∧
      l'.it = s.sessionMap.succ key ∧ Sweeping s l' := by
    intro l key hl hit
    obtain ⟨se, hse⟩ := Map.find_of_mem_keys (hl.it key hit)
    have hse' : l.proxy.sessionMap.find key = some se := by rw [hl.proxy]; exact hse
    refine ⟨_, round_kept hit hse' (he key se hse), by rw [hl.proxy], ?_⟩
    rw [hl.proxy]
    exact hl.next hit hse (he key se hse)
  refine ⟨Machine.safe_of_inv (Sweeping s) (sweeping_init s) ?_, ?_⟩
  · intro l _ hl hit
    obtain ⟨key, hit⟩ := Option.ne_none_iff_exists'.1 hit
    obtain ⟨l', hx, -, hl'⟩ := hround hl hit
    exact ⟨l', hx, hl'⟩
  · -- along the iteration of `sessionMap_`, which stays as it is
    have hend : ∀ l, l.it = s.sessionMap.first → Sweeping s l →
        ∃ tr t, Steps (processSession name s) l tr t ∧ t.it = none := by
      refine Map.iterate (fun it => ∀ l, l.it = it → Sweeping s l →
        ∃ tr t, Steps (processSession name s) l tr t ∧ t.it = none) ?_ ?_
      · intro l hit _
        exact ⟨[], l, .nil l, hit⟩
      · intro key _ ih l hit hl
        obtain ⟨l', hx, hit', hl'⟩ := hround hl hit
        obtain ⟨tr, t, hst, ht⟩ := ih l' hit' hl'
        exact ⟨(l, ()) :: tr, t, .cons (by simp [processSession, hit]) hx hst, ht⟩
    obtain ⟨tr, t, hr, hit⟩ := hend _ rfl (sweeping_init s)
    have h := sweeping_run hr
    refine ⟨tr, t, hr, hit, h.visited_perm hit, ?_⟩
    intro key
    rw [h.proxy]
    rcases hse : s.sessionMap.find key with _ | se
    · rfl
    · rw [Option.filter_some, if_pos (by simpa using he key se hse)]

/-- The sweep does what it should exactly when no session is expired. -/
theorem sweeps_iff (name : String) (s : St) :
    Sweeps name s ↔ ∀ key se, s.sessionMap.find key = some se → ¬ se.Expired s.now :=
  ⟨fun h _ _ hse => not_expired_of_sweeps h hse, sweeps_of_not_expired⟩

/-- Two clients; the session of the first has had its time, and can be erased. -/
theorem expired_not_swept : ∃ tr s, Run (machine "0.0.0.0:8000") tr s ∧
    (∃ t ∈ eraseSession "0.0.0.0:8000" s 1, session "0.0.0.0:8000" t 1 = none) ∧
    ¬ Sweeps "0.0.0.0:8000" s := by
  obtain ⟨r, hr, ⟨se, hse, he⟩, h⟩ : ∃ r ∈ (machine "0.0.0.0:8000").play (machine "0.0.0.0:8000").init
      [.newConnection .EINPROGRESS, .tick 30000000, .newConnection .EINPROGRESS, .tick 60000001],
      (∃ se ∈ session "0.0.0.0:8000" r.2 1, se.Expired r.2.now) ∧
      ∃ t ∈ eraseSession "0.0.0.0:8000" r.2 1, (session "0.0.0.0:8000" t 1).isNone := by decide +kernel
  obtain ⟨t, ht, hn⟩ := h
  exact ⟨r.1, r.2, Machine.play_steps hr, ⟨t, ht, Option.isNone_iff_eq_none.1 hn⟩,
    fun hs => not_expired_of_sweeps hs hse he⟩

end Cppnetool.Proxy
