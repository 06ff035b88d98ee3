import Mathlib.Data.List.Nodup
import StashiWallet.Runs

/-!
# Ranges in flight

Tasks that download blocks share one map of the ranges being downloaded. A task whose range
overlaps none of an endpoint's ranges becomes a leader and holds a token; any other follows the
leader it met and waits. Finishing a token, by completing or by dropping it, takes its key out of
the map and sends `true` on the leader's channel, under the map's lock.

The tokens and channels are indexed by the `Arc` they share. An event of `InflightEvent` is one
atomic step of one task: the sections under the lock, and what a task does on its own between two
of them.
-/

namespace StashiWallet

/-- `RangeKey`; `stop` is the source's `end`, the last height. -/
structure RangeKey where
  endpoint : String
  start : Nat
  stop : Nat
deriving DecidableEq, Repr

/-- The channel `tokio::sync::watch` of an `InflightState`: a new channel, what is sent, what is
borrowed, and what a receiver remembers of the last value that it has seen. A borrow reads the
value that was sent last, and `false` before that. -/
structure WatchChannel (σ : Type) where
  channel : σ
  sendReplace : σ → Bool → σ
  borrow : σ → Bool
  version : σ → Nat
  borrow_channel : borrow channel = false
  borrow_sendReplace : ∀ state value, borrow (sendReplace state value) = value

/-- Where a token is: held by its task, inside `finish_inflight`, or finished by `complete` and
about to be dropped. -/
inductive TokenStage where
  | held
  | finishing
  | closing
deriving DecidableEq, Repr

structure InflightToken where
  key : RangeKey
  completed : Bool
  stage : TokenStage
deriving DecidableEq, Repr

/-- Where `InflightWaiter::wait` is: at the test of the loop, in `changed`, or back. -/
inductive WaiterStage where
  | testing
  | waiting
  | done
deriving DecidableEq, Repr

/-- `InflightWaiter`, with the range it was asked for and the version it has seen. -/
structure InflightWaiter where
  requested : RangeKey
  leader : Nat
  seen : Nat
  stage : WaiterStage
deriving DecidableEq, Repr

/-- `INFLIGHT_RANGES` and what the tasks hold. `leaders` are the keys of all leaders so far. -/
structure Inflight (σ : Type) where
  map : List (RangeKey × Nat)
  channels : Nat → σ
  tokens : Nat → Option InflightToken
  leaders : List RangeKey
  waiters : List InflightWaiter

/-- What tasks do. `order` is the order in which the map is iterated. -/
inductive InflightEvent where
  | acquire (endpoint : String) (start stop : Nat) (order : List (RangeKey × Nat))
  | complete (token : Nat)
  | drop (token : Nat)
  | finish (token : Nat)
  | close (token : Nat)
  | borrow (waiter : Nat)
  | changed (waiter : Nat)
deriving DecidableEq, Repr

namespace Inflight

variable {σ : Type} (watch : WatchChannel σ)

/-- The start of the process. -/
def empty : Inflight σ where
  map := []
  channels := fun _ => watch.channel
  tokens := fun _ => none
  leaders := []
  waiters := []

def findOverlapLocked (order : List (RangeKey × Nat)) (endpoint : String) (start stop : Nat) :
    Option (RangeKey × Nat) :=
  order.find? fun entry =>
    entry.1.endpoint == endpoint && decide (start ≤ entry.1.stop) &&
      decide (entry.1.start ≤ stop)

variable (s : Inflight σ)

def acquireInflight (endpoint : String) (start stop : Nat) (order : List (RangeKey × Nat)) :
    Inflight σ :=
  let key : RangeKey := ⟨endpoint, start, stop⟩
  match findOverlapLocked order endpoint start stop with
  | some existing =>
    { s with
      waiters := s.waiters ++
        [⟨key, existing.2, watch.version (s.channels existing.2), .testing⟩] }
  | none =>
    let state := s.leaders.length
    { s with
      channels := Function.update s.channels state watch.channel
      map := s.map.filter (fun entry => entry.1 != key) ++ [(key, state)]
      tokens := Function.update s.tokens state (some ⟨key, false, .held⟩)
      leaders := s.leaders ++ [key] }

def finishInflight (key : RangeKey) (state : Nat) : Inflight σ :=
  { s with
    map := s.map.filter (fun entry => entry.1 != key)
    channels := Function.update s.channels state
      (watch.sendReplace (s.channels state) true) }

/-- `Drop` of a token: it goes to `finish_inflight`, or away. -/
def dropToken (state : Nat) (token : InflightToken) : Inflight σ :=
  { s with
    tokens := Function.update s.tokens state
      (if !token.completed then some { token with stage := .finishing } else none) }

/-- All `Arc`s of the channel are gone. -/
def closed (state : Nat) : Bool :=
  (s.tokens state).isNone && s.map.all fun entry => entry.2 != state

/-- One event. What cannot happen does nothing. -/
def step (s : Inflight σ) : InflightEvent → Inflight σ
  | .acquire endpoint start stop order =>
    if order.Perm s.map then s.acquireInflight watch endpoint start stop order else s
  | .complete state =>
    match s.tokens state with
    | some ⟨key, _, .held⟩ =>
      { s with tokens := Function.update s.tokens state (some ⟨key, true, .finishing⟩) }
    | _ => s
  | .drop state =>
    match s.tokens state with
    | some ⟨key, completed, .held⟩ => s.dropToken state ⟨key, completed, .held⟩
    | _ => s
  | .finish state =>
    match s.tokens state with
    | some ⟨key, completed, .finishing⟩ =>
      { s.finishInflight watch key state with
        tokens := Function.update s.tokens state
          (if completed then some ⟨key, completed, .closing⟩ else none) }
    | _ => s
  | .close state =>
    match s.tokens state with
    | some ⟨key, completed, .closing⟩ => s.dropToken state ⟨key, completed, .closing⟩
    | _ => s
  | .borrow index =>
    { s with
      waiters := s.waiters.modify index fun waiter =>
        if waiter.stage = .testing then
          { waiter with
            stage := if !watch.borrow (s.channels waiter.leader) then .waiting else .done }
        else waiter }
  | .changed index =>
    { s with
      waiters := s.waiters.modify index fun waiter =>
        if waiter.stage = .waiting then
          if watch.version (s.channels waiter.leader) ≠ waiter.seen then
            { waiter with seen := watch.version (s.channels waiter.leader), stage := .testing }
          else if s.closed waiter.leader then { waiter with stage := .done }
          else waiter
        else waiter }

/-- A live leader: the token's range is being downloaded. -/
def Leads (key : RangeKey) (state : Nat) : Prop :=
  ∃ token, s.tokens state = some token ∧ token.key = key ∧ token.stage ≠ .closing

end Inflight

/-- Two ranges of one endpoint have a height in common. -/
def RangeKey.Overlaps (first second : RangeKey) : Prop :=
  first.endpoint = second.endpoint ∧ first.start ≤ second.stop ∧ second.start ≤ first.stop

theorem RangeKey.Overlaps.symm {first second : RangeKey} (h : first.Overlaps second) :
    second.Overlaps first := ⟨h.1.symm, h.2.2, h.2.1⟩

/-- A range that is not empty overlaps itself. -/
theorem RangeKey.overlaps_self {key : RangeKey} (h : key.start ≤ key.stop) : key.Overlaps key :=
  ⟨rfl, h, h⟩

namespace Inflight

variable {σ : Type} (watch : WatchChannel σ)

/-- A token in its place: its key, and what its flag says at its stage. -/
structure Fits (leaders : List RangeKey) (state : Nat) (token : InflightToken) : Prop where
  key : leaders[state]? = some token.key
  held : token.stage = .held → token.completed = false
  closing : token.stage = .closing → token.completed = true

/-- What holds between any two events. -/
structure Safe (s : Inflight σ) : Prop where
  tokens : ∀ state token, s.tokens state = some token → Fits s.leaders state token
  nodup : s.map.Nodup
  listed : ∀ key state, (key, state) ∈ s.map ↔ s.Leads key state
  nonempty : ∀ key state, s.Leads key state → key.start ≤ key.stop
  apart : ∀ key state key' state', s.Leads key state → s.Leads key' state' →
    key.Overlaps key' → state = state'
  running : ∀ key state, s.Leads key state → watch.borrow (s.channels state) = false
  finished : ∀ state < s.leaders.length,
    (∃ key, s.Leads key state) ∨ watch.borrow (s.channels state) = true
  waits : ∀ waiter ∈ s.waiters, ∃ key, s.leaders[waiter.leader]? = some key ∧
    waiter.requested.Overlaps key ∧
      (waiter.stage = .done → watch.borrow (s.channels waiter.leader) = true)

theorem safe_empty : (empty watch).Safe watch := by
  have hnone : ∀ key state, ¬ (empty watch).Leads key state := by
    rintro key state ⟨token, htoken, -⟩
    cases htoken
  refine ⟨?_, List.nodup_nil, ?_, ?_, ?_, ?_, ?_, List.forall_mem_nil _⟩
  · intro state token htoken
    cases htoken
  · exact fun key state => iff_of_false List.not_mem_nil (hnone key state)
  · exact fun key state h => absurd h (hnone key state)
  · exact fun key state _ _ h => absurd h (hnone key state)
  · exact fun key state h => absurd h (hnone key state)
  · exact fun state h => absurd h (Nat.not_lt_zero state)

variable {watch} {s : Inflight σ}

/-- A key found by the search is the key of an entry that overlaps. -/
theorem findOverlapLocked_eq_some {order : List (RangeKey × Nat)} {endpoint : String}
    {start stop : Nat} {found : RangeKey × Nat}
    (h : findOverlapLocked order endpoint start stop = some found) :
    found ∈ order ∧ RangeKey.Overlaps ⟨endpoint, start, stop⟩ found.1 := by
  have hcond := List.find?_some h
  simp only [Bool.and_eq_true, beq_iff_eq, decide_eq_true_eq] at hcond
  exact ⟨List.mem_of_find?_eq_some h, hcond.1.1.symm, hcond.1.2, hcond.2⟩

theorem findOverlapLocked_eq_none {order : List (RangeKey × Nat)} {endpoint : String}
    {start stop : Nat} (h : findOverlapLocked order endpoint start stop = none) :
    ∀ entry ∈ order, ¬ RangeKey.Overlaps ⟨endpoint, start, stop⟩ entry.1 := by
  rintro entry hentry ⟨hendpoint, hstart, hstop⟩
  have hcond := List.find?_eq_none.mp h entry hentry
  simp only [Bool.and_eq_true, beq_iff_eq, decide_eq_true_eq] at hcond
  exact hcond ⟨⟨hendpoint.symm, hstart⟩, hstop⟩

variable {state : Nat} {token : Option InflightToken}

theorem tokens_update {tokens : Nat → Option InflightToken} {P : Nat → InflightToken → Prop}
    (h : ∀ state token, tokens state = some token → P state token)
    (hnew : ∀ t, token = some t → P state t) :
    ∀ other t, Function.update tokens state token other = some t → P other t := by
  intro other t ht
  by_cases hother : other = state
  · subst hother
    rw [Function.update_self] at ht
    exact hnew t ht
  · rw [Function.update_of_ne hother] at ht
    exact h other t ht

variable {key : RangeKey}

/-- Who leads after one token has changed. -/
theorem leads_update {after : Inflight σ}
    (hafter : after.tokens = Function.update s.tokens state token) {other : Nat}
    (hne : other ≠ state) : after.Leads key other ↔ s.Leads key other := by
  unfold Leads
  rw [hafter, Function.update_of_ne hne]

theorem leads_updated {after : Inflight σ}
    (hafter : after.tokens = Function.update s.tokens state token) :
    after.Leads key state ↔ ∃ t, token = some t ∧ t.key = key ∧ t.stage ≠ .closing := by
  unfold Leads
  rw [hafter, Function.update_self]

variable (h : s.Safe watch)

include h

/-- Only the tokens change, and they lead as before. -/
theorem Safe.of_leads {tokens : Nat → Option InflightToken}
    (htokens : ∀ state token, tokens state = some token → Fits s.leaders state token)
    (hleads : ∀ key state, ({ s with tokens := tokens } : Inflight σ).Leads key state ↔
      s.Leads key state) : ({ s with tokens := tokens } : Inflight σ).Safe watch where
  tokens := htokens
  nodup := h.nodup
  listed key state := (h.listed key state).trans (hleads key state).symm
  nonempty key state hlead := h.nonempty key state ((hleads _ _).mp hlead)
  apart key state key' state' hlead hlead' :=
    h.apart key state key' state' ((hleads _ _).mp hlead) ((hleads _ _).mp hlead')
  running key state hlead := h.running key state ((hleads _ _).mp hlead)
  finished state hstate := (h.finished state hstate).imp_left fun ⟨key, hlead⟩ =>
    ⟨key, (hleads _ _).mpr hlead⟩
  waits := h.waits

variable {completed : Bool}

/-- A token that goes to `finish_inflight` leads on. -/
theorem Safe.toFinishing (htoken : s.tokens state = some ⟨key, completed, .held⟩) (flag : Bool) :
    ({ s with tokens := Function.update s.tokens state (some ⟨key, flag, .finishing⟩) } :
      Inflight σ).Safe watch := by
  have hleads : ∀ (key' : RangeKey) (other : Nat),
      ({ s with tokens := Function.update s.tokens state (some ⟨key, flag, .finishing⟩) } :
        Inflight σ).Leads key' other ↔ s.Leads key' other := by
    intro key' other
    by_cases hother : other = state
    · subst hother
      rw [leads_updated rfl]
      constructor
      · rintro ⟨token, hsome, rfl, -⟩
        obtain rfl := Option.some.inj hsome
        exact ⟨_, htoken, rfl, by simp⟩
      · rintro ⟨token, hsome, rfl, -⟩
        obtain rfl := Option.some.inj (htoken.symm.trans hsome)
        exact ⟨_, rfl, rfl, by simp⟩
    · exact leads_update rfl hother
  refine h.of_leads (tokens_update h.tokens (fun token hsome => ?_)) hleads
  obtain rfl := Option.some.inj hsome
  exact ⟨(h.tokens state _ htoken).key, (fun hstage => nomatch hstage),
    (fun hstage => nomatch hstage)⟩

/-- Finishing a token takes the range of its leader, and no other, out of the map. -/
theorem Safe.finish (htoken : s.tokens state = some ⟨key, completed, .finishing⟩) :
    ({ s.finishInflight watch key state with
      tokens := Function.update s.tokens state
        (if completed then some ⟨key, completed, .closing⟩ else none) } :
      Inflight σ).Safe watch := by
  have hled : s.Leads key state := ⟨_, htoken, rfl, by simp⟩
  have hself := RangeKey.overlaps_self (h.nonempty key state hled)
  have hleads : ∀ key' other,
      ({ s.finishInflight watch key state with
        tokens := Function.update s.tokens state
          (if completed then some ⟨key, completed, .closing⟩ else none) } : Inflight σ).Leads
        key' other ↔ other ≠ state ∧ s.Leads key' other := by
    intro key' other
    by_cases hother : other = state
    · subst hother
      rw [leads_updated rfl]
      refine iff_of_false ?_ (fun hne => hne.1 rfl)
      rintro ⟨token, hsome, -, hstage⟩
      split at hsome
      · obtain rfl := Option.some.inj hsome
        exact hstage rfl
      · cases hsome
    · rw [leads_update rfl hother]
      exact (and_iff_right hother).symm
  constructor
  · refine tokens_update h.tokens (fun token hsome => ?_)
    split at hsome
    · rename_i hcompleted
      obtain rfl := Option.some.inj hsome
      exact ⟨(h.tokens state _ htoken).key, (fun hstage => nomatch hstage), fun _ => hcompleted⟩
    · cases hsome
  · exact h.nodup.filter _
  · intro key' other
    rw [hleads]
    show (key', other) ∈ s.map.filter (fun entry => entry.1 != key) ↔ _
    rw [List.mem_filter, h.listed, bne_iff_ne, and_comm]
    refine and_congr_left (fun hlead => not_congr ?_)
    constructor
    · rintro rfl
      exact h.apart key' other key' state hlead hled hself
    · rintro rfl
      obtain ⟨token, hsome, hkey, -⟩ := hlead
      obtain rfl := Option.some.inj (htoken.symm.trans hsome)
      exact hkey.symm
  · exact fun key' other hlead => h.nonempty key' other ((hleads _ _).mp hlead).2
  · exact fun key' other key'' other' hlead hlead' =>
      h.apart key' other key'' other' ((hleads _ _).mp hlead).2 ((hleads _ _).mp hlead').2
  · intro key' other hlead
    obtain ⟨hne, hold⟩ := (hleads key' other).mp hlead
    show watch.borrow (Function.update s.channels state _ other) = false
    rw [Function.update_of_ne hne]
    exact h.running key' other hold
  · intro other hother
    by_cases heq : other = state
    · subst heq
      right
      show watch.borrow (Function.update s.channels other _ other) = true
      rw [Function.update_self, watch.borrow_sendReplace]
    · rcases h.finished other hother with ⟨key', hlead⟩ | hcompleted
      · exact Or.inl ⟨key', (hleads _ _).mpr ⟨heq, hlead⟩⟩
      · right
        show watch.borrow (Function.update s.channels state _ other) = true
        rwa [Function.update_of_ne heq]
  · intro waiter hwaiter
    obtain ⟨leader, hleader, hoverlaps, hdone⟩ := h.waits waiter hwaiter
    refine ⟨leader, hleader, hoverlaps, fun hstage => ?_⟩
    show watch.borrow (Function.update s.channels state _ waiter.leader) = true
    by_cases heq : waiter.leader = state
    · rw [heq, Function.update_self, watch.borrow_sendReplace]
    · rw [Function.update_of_ne heq]
      exact hdone hstage

/-- Dropping a token that `complete` has finished. -/
theorem Safe.close (htoken : s.tokens state = some ⟨key, completed, .closing⟩) :
    (s.dropToken state ⟨key, completed, .closing⟩).Safe watch := by
  have hcompleted : completed = true := (h.tokens state _ htoken).closing rfl
  subst hcompleted
  have hleads : ∀ (key' : RangeKey) (other : Nat),
      (s.dropToken state ⟨key, true, .closing⟩).Leads key' other ↔ s.Leads key' other := by
    intro key' other
    by_cases hother : other = state
    · subst hother
      refine iff_of_false ?_ ?_
      · rw [leads_updated rfl]
        rintro ⟨token, hsome, -⟩
        cases hsome
      · rintro ⟨token, hsome, -, hstage⟩
        obtain rfl := Option.some.inj (htoken.symm.trans hsome)
        exact hstage rfl
    · exact leads_update rfl hother
  exact h.of_leads (tokens_update h.tokens (fun token hsome => nomatch hsome)) hleads

/-- A range that meets a leader's follows it. -/
theorem Safe.follow {key found : RangeKey} {state version : Nat} (hfound : (found, state) ∈ s.map)
    (hoverlaps : key.Overlaps found) :
    ({ s with waiters := s.waiters ++ [⟨key, state, version, .testing⟩] } :
      Inflight σ).Safe watch := by
  refine ⟨h.tokens, h.nodup, h.listed, h.nonempty, h.apart, h.running, h.finished, ?_⟩
  intro waiter hwaiter
  rcases List.mem_append.mp hwaiter with hold | hnew
  · exact h.waits waiter hold
  · rw [List.mem_singleton.mp hnew]
    obtain ⟨token, htoken, hkey, -⟩ := (h.listed found state).mp hfound
    exact ⟨found, hkey ▸ (h.tokens state token htoken).key, hoverlaps,
      (fun hstage => nomatch hstage)⟩

/-- A range that meets no leader's is led. -/
theorem Safe.lead (hkey : key.start ≤ key.stop) (halone : ∀ entry ∈ s.map, ¬ key.Overlaps entry.1) :
    ({ s with
      channels := Function.update s.channels s.leaders.length watch.channel
      map := s.map.filter (fun entry => entry.1 != key) ++ [(key, s.leaders.length)]
      tokens := Function.update s.tokens s.leaders.length (some ⟨key, false, .held⟩)
      leaders := s.leaders ++ [key] } : Inflight σ).Safe watch := by
  have hold : ∀ state token, s.tokens state = some token → state < s.leaders.length := by
    intro state token htoken
    exact (List.getElem?_eq_some_iff.mp (h.tokens state token htoken).key).1
  have hfresh : ∀ key', ¬ s.Leads key' s.leaders.length := by
    rintro key' ⟨token, htoken, -⟩
    exact absurd (hold _ token htoken) (Nat.lt_irrefl _)
  have hfilter : s.map.filter (fun entry => entry.1 != key) = s.map := by
    refine List.filter_eq_self.mpr (fun entry hentry => bne_iff_ne.mpr ?_)
    rintro rfl
    exact halone entry hentry (RangeKey.overlaps_self hkey)
  rw [hfilter]
  have hleads : ∀ (key' : RangeKey) (other : Nat),
      ({ s with
        channels := Function.update s.channels s.leaders.length watch.channel
        map := s.map ++ [(key, s.leaders.length)]
        tokens := Function.update s.tokens s.leaders.length (some ⟨key, false, .held⟩)
        leaders := s.leaders ++ [key] } : Inflight σ).Leads key' other ↔
      s.Leads key' other ∨ key' = key ∧ other = s.leaders.length := by
    intro key' other
    by_cases hother : other = s.leaders.length
    · subst hother
      rw [leads_updated rfl]
      constructor
      · rintro ⟨token, hsome, rfl, -⟩
        obtain rfl := Option.some.inj hsome
        exact Or.inr ⟨rfl, rfl⟩
      · rintro (hlead | ⟨rfl, -⟩)
        · exact absurd hlead (hfresh key')
        · exact ⟨_, rfl, rfl, by simp⟩
    · rw [leads_update rfl hother]
      refine ⟨Or.inl, ?_⟩
      rintro (hlead | ⟨-, heq⟩)
      · exact hlead
      · exact absurd heq hother
  have hgrown : ∀ {state : Nat} {key' : RangeKey}, s.leaders[state]? = some key' →
      (s.leaders ++ [key])[state]? = some key' := by
    intro state key' hstate
    rw [List.getElem?_append_left (List.getElem?_eq_some_iff.mp hstate).1]
    exact hstate
  constructor
  · refine tokens_update (fun state token htoken => ?_) (fun token hsome => ?_)
    · have hfits := h.tokens state token htoken
      exact ⟨hgrown hfits.key, hfits.held, hfits.closing⟩
    · obtain rfl := Option.some.inj hsome
      exact ⟨List.getElem?_concat_length, fun _ => rfl, (fun hstage => nomatch hstage)⟩
  · refine h.nodup.append (List.nodup_singleton _) (fun entry hentry hnew => ?_)
    obtain rfl := List.mem_singleton.mp hnew
    exact halone _ hentry (RangeKey.overlaps_self hkey)
  · intro key' other
    rw [hleads]
    show (key', other) ∈ s.map ++ [(key, s.leaders.length)] ↔ _
    rw [List.mem_append, h.listed, List.mem_singleton, Prod.mk.injEq]
  · intro key' other hlead
    rcases (hleads _ _).mp hlead with hlead | ⟨rfl, -⟩
    · exact h.nonempty key' other hlead
    · exact hkey
  · intro key' other key'' other' hlead hlead' hoverlaps
    rcases (hleads _ _).mp hlead with hled | ⟨hkey', hother⟩
    · rcases (hleads _ _).mp hlead' with hled' | ⟨hkey'', -⟩
      · exact h.apart key' other key'' other' hled hled' hoverlaps
      · rw [hkey''] at hoverlaps
        exact absurd hoverlaps.symm (halone _ ((h.listed _ _).mpr hled))
    · rcases (hleads _ _).mp hlead' with hled' | ⟨-, hother'⟩
      · rw [hkey'] at hoverlaps
        exact absurd hoverlaps (halone _ ((h.listed _ _).mpr hled'))
      · exact hother.trans hother'.symm
  · intro key' other hlead
    show watch.borrow (Function.update s.channels s.leaders.length _ other) = false
    rcases (hleads _ _).mp hlead with hlead | ⟨rfl, rfl⟩
    · have hne : other ≠ s.leaders.length := by
        rintro rfl
        exact hfresh key' hlead
      rw [Function.update_of_ne hne]
      exact h.running key' other hlead
    · rw [Function.update_self, watch.borrow_channel]
  · intro other hother
    rcases Nat.lt_succ_iff_lt_or_eq.mp (List.length_append ▸ hother) with hlt | heq
    · rcases h.finished other hlt with ⟨key', hlead⟩ | hcompleted
      · exact Or.inl ⟨key', (hleads _ _).mpr (Or.inl hlead)⟩
      · right
        show watch.borrow (Function.update s.channels s.leaders.length _ other) = true
        rwa [Function.update_of_ne (Nat.ne_of_lt hlt)]
    · exact Or.inl ⟨key, (hleads _ _).mpr (Or.inr ⟨rfl, heq⟩)⟩
  · intro waiter hwaiter
    obtain ⟨leader, hleader, hoverlaps, hdone⟩ := h.waits waiter hwaiter
    refine ⟨leader, hgrown hleader, hoverlaps, fun hstage => ?_⟩
    show watch.borrow (Function.update s.channels s.leaders.length _ waiter.leader) = true
    rw [Function.update_of_ne (Nat.ne_of_lt (List.getElem?_eq_some_iff.mp hleader).1)]
    exact hdone hstage

/-- A waiter may go on as it likes, as long as it is done only with a completed leader. -/
theorem Safe.wait (index : Nat) {goOn : InflightWaiter → InflightWaiter}
    (hsame : ∀ waiter, (goOn waiter).leader = waiter.leader ∧
      (goOn waiter).requested = waiter.requested)
    (hdone : ∀ waiter, waiter.leader < s.leaders.length → (goOn waiter).stage = .done →
      waiter.stage = .done ∨ watch.borrow (s.channels waiter.leader) = true) :
    ({ s with waiters := s.waiters.modify index goOn } : Inflight σ).Safe watch := by
  refine ⟨h.tokens, h.nodup, h.listed, h.nonempty, h.apart, h.running, h.finished, ?_⟩
  intro after hafter
  obtain ⟨position, hposition⟩ := List.mem_iff_getElem?.mp hafter
  rw [List.getElem?_modify] at hposition
  obtain ⟨waiter, hwaiter, rfl⟩ := Option.map_eq_some_iff.mp hposition
  obtain ⟨leader, hleader, hoverlaps, hcompleted⟩ :=
    h.waits waiter (List.mem_of_getElem? hwaiter)
  split
  · rw [(hsame waiter).1, (hsame waiter).2]
    refine ⟨leader, hleader, hoverlaps, fun hstage => ?_⟩
    rcases hdone waiter (List.getElem?_eq_some_iff.mp hleader).1 hstage with hwas | hnow
    · exact hcompleted hwas
    · exact hnow
  · exact ⟨leader, hleader, hoverlaps, hcompleted⟩

/-- A channel whose `Arc`s are all gone has been completed. -/
theorem Safe.completed_of_closed (hstate : state < s.leaders.length)
    (hclosed : s.closed state = true) : watch.borrow (s.channels state) = true := by
  rcases h.finished state hstate with ⟨key, token, htoken, -⟩ | hcompleted
  · unfold closed at hclosed
    rw [htoken] at hclosed
    cases hclosed
  · exact hcompleted

/-- The step lemma. The ranges asked for are not empty. -/
theorem Safe.step {event : InflightEvent}
    (hrange : ∀ endpoint start stop order, event = .acquire endpoint start stop order →
      start ≤ stop) : (s.step watch event).Safe watch := by
  unfold Inflight.step
  cases event with
  | acquire endpoint start stop order =>
    dsimp only
    split
    · rename_i hperm
      unfold acquireInflight
      dsimp only
      split
      · rename_i found hfound
        obtain ⟨hmem, hoverlaps⟩ := findOverlapLocked_eq_some hfound
        exact h.follow (hperm.mem_iff.mp hmem) hoverlaps
      · rename_i hnone
        refine h.lead (hrange endpoint start stop order rfl) (fun entry hentry => ?_)
        exact findOverlapLocked_eq_none hnone entry (hperm.mem_iff.mpr hentry)
    · exact h
  | complete state =>
    dsimp only
    split
    · rename_i key completed htoken
      exact h.toFinishing htoken true
    · exact h
  | drop state =>
    dsimp only
    split
    · rename_i key completed htoken
      have hflag : completed = false := (h.tokens state _ htoken).held rfl
      subst hflag
      exact h.toFinishing htoken false
    · exact h
  | finish state =>
    dsimp only
    split
    · rename_i key completed htoken
      exact h.finish htoken
    · exact h
  | close state =>
    dsimp only
    split
    · rename_i key completed htoken
      exact h.close htoken
    · exact h
  | borrow index =>
    refine h.wait index (fun waiter => ?_) (fun waiter _ hstage => ?_)
    · split <;> exact ⟨rfl, rfl⟩
    · split at hstage
      · cases hcompleted : watch.borrow (s.channels waiter.leader) with
        | false => rw [hcompleted] at hstage; cases hstage
        | true => exact Or.inr rfl
      · exact Or.inl hstage
  | changed index =>
    refine h.wait index (fun waiter => ?_) (fun waiter hstate hstage => ?_)
    · split
      · split
        · exact ⟨rfl, rfl⟩
        · split <;> exact ⟨rfl, rfl⟩
      · exact ⟨rfl, rfl⟩
    · split at hstage
      · split at hstage
        · cases hstage
        · split at hstage
          · rename_i hclosed
            exact Or.inr (h.completed_of_closed hstate hclosed)
          · exact Or.inl hstage
      · exact Or.inl hstage

end Inflight

/-- **Downloads never overlap.** However tasks acquire, complete and drop tokens on ranges that
are not empty: two live leaders of an endpoint hold disjoint ranges, the map lists each live
leader's range once and nothing else, and a wait that has ended was for a leader whose range
overlapped and that has finished. -/
theorem inflight_leaders_disjoint {σ : Type} (watch : WatchChannel σ)
    (events : List InflightEvent)
    (hranges : ∀ endpoint start stop order,
      InflightEvent.acquire endpoint start stop order ∈ events → start ≤ stop) :
    Runs.Throughout (Inflight.step watch) (fun s =>
      (∀ key state key' state', s.Leads key state → s.Leads key' state' → state ≠ state' →
        key.endpoint = key'.endpoint → key.stop < key'.start ∨ key'.stop < key.start) ∧
      (∀ key state, (key, state) ∈ s.map ↔ s.Leads key state) ∧
      (s.map.map (·.1)).Nodup ∧
      ∀ waiter ∈ s.waiters, waiter.stage = .done →
        ∃ key, s.leaders[waiter.leader]? = some key ∧ waiter.requested.Overlaps key ∧
          ∀ key', ¬ s.Leads key' waiter.leader) (Inflight.empty watch) events := by
  have hsteps : Runs.EachStep (Inflight.step watch) (fun _ event => ∀ endpoint start stop order,
      event = .acquire endpoint start stop order → start ≤ stop)
      (Inflight.empty watch) events := by
    rintro done event rest rfl endpoint start stop order rfl
    exact hranges endpoint start stop order (by simp)
  intro done hdone
  have h : (Runs.run (Inflight.step watch) (Inflight.empty watch) done).Safe watch :=
    Runs.run_invariant (P := Inflight.Safe watch)
      (fun s event h hevent => Inflight.Safe.step h hevent)
      (Inflight.safe_empty watch) hsteps done hdone
  refine ⟨?_, h.listed, ?_, ?_⟩
  · intro key state key' state' hlead hlead' hne hendpoint
    by_contra hmeet
    obtain ⟨hbefore, hafter⟩ := not_or.mp hmeet
    exact hne (h.apart key state key' state' hlead hlead'
      ⟨hendpoint, Nat.not_lt.mp hafter, Nat.not_lt.mp hbefore⟩)
  · refine h.nodup.map_on (fun entry hentry other hother hkey => ?_)
    have hlead := (h.listed entry.1 entry.2).mp hentry
    have hlead' := (h.listed other.1 other.2).mp hother
    refine Prod.ext hkey (h.apart _ _ _ _ hlead hlead' ?_)
    rw [← hkey]
    exact RangeKey.overlaps_self (h.nonempty _ _ hlead)
  · intro waiter hwaiter hstage
    obtain ⟨key, hkey, hoverlaps, hcompleted⟩ := h.waits waiter hwaiter
    refine ⟨key, hkey, hoverlaps, fun key' hlead => ?_⟩
    have hrunning := h.running key' waiter.leader hlead
    rw [hcompleted hstage] at hrunning
    cases hrunning

/-- A value with the number of times it was sent. -/
def countedWatch : WatchChannel (Bool × Nat) where
  channel := (false, 0)
  sendReplace state value := (value, state.2 + 1)
  borrow := Prod.fst
  version := Prod.snd
  borrow_channel := rfl
  borrow_sendReplace _ _ := rfl

/-- A follower of 10 to 20 goes on after the leader has completed, and a second leader takes an
overlapping range between the completion and the drop of the first token. -/
def handover : List InflightEvent :=
  [.acquire "e" 10 20 [], .acquire "e" 15 30 [(⟨"e", 10, 20⟩, 0)], .borrow 0, .complete 0,
    .finish 0, .acquire "e" 20 25 [], .close 0, .changed 0, .borrow 0]

def afterHandover : Inflight (Bool × Nat) :=
  Runs.run (Inflight.step countedWatch) (Inflight.empty countedWatch) handover

theorem inflight_leaders_disjoint_handover :
    afterHandover.map = [(⟨"e", 20, 25⟩, 1)] ∧ ∃ waiter ∈ afterHandover.waiters,
      waiter.stage = .done ∧ ∀ key', ¬ afterHandover.Leads key' waiter.leader := by
  have h := inflight_leaders_disjoint countedWatch handover
    (by
      intro endpoint start stop order hmem
      simp only [handover, List.mem_cons, InflightEvent.acquire.injEq, reduceCtorEq,
        List.not_mem_nil, or_false, false_or] at hmem
      omega) _ List.prefix_rfl
  have hdone : ∃ waiter ∈ afterHandover.waiters, waiter.stage = .done := by decide +kernel
  obtain ⟨waiter, hwaiter, hstage⟩ := hdone
  obtain ⟨_, _, _, hnot⟩ := h.2.2.2 waiter hwaiter hstage
  exact ⟨by decide +kernel, waiter, hwaiter, hstage, hnot⟩

end StashiWallet
