import MirageNavi.Tls.RateLimited
import Mathlib.Algebra.Order.Field.Rat
import Mathlib.Data.List.Chain
import Mathlib.Tactic.Linarith

/-! # The token bucket behind `Accept`

`newRateLimitedListener` gives each listener `rate.NewLimiter(limit, burst)`, and `Accept` asks
`l.lim.Allow()` once for each connection the wrapped listener hands it, after it has the
connection and before it either returns it or closes it; a wrapped listener's error is returned
without asking. The limiter here is the token bucket of the design: it holds at most `burst`
tokens, gains `limit` tokens a second, starts full, and admits a connection by taking a token.
Times are seconds and limits tokens a second, both in `ℚ`: every finite `float64` and every
`time.Time` is a rational.

A refused connection is closed inside the call, `cn.Close()` before `return nil, errLimitedConn`,
and the listener keeps no connection of its own: its state is two counters and the bucket. The
bucket bounds the connections returned in any interval of length `d` by `burst + limit * d`: the
first call in the interval finds at most `burst` tokens, and every later one at most what the
time since the one before added. Conversely, with `burst ≥ 1` the bucket refuses no connection
that comes a token's refill, `1 / limit` seconds, after the one before it.
-/

namespace MirageNavi.Tls

set_option autoImplicit false

/-- Modelled from the spec: the token bucket of `rate.Limiter`, the tokens it held at time
`last`. -/
structure Bucket where
  tokens : ℚ
  last : ℚ
  deriving DecidableEq, Repr

def Bucket.full (burst : Nat) (t : ℚ) : Bucket := ⟨burst, t⟩

/-- Modelled from the spec: `Allow()` at time `t`. The bucket gains `limit` tokens a second since
`last`, up to `burst`, and admits when it holds a whole token, taking it. -/
def Bucket.allow (limit : ℚ) (burst : Nat) (k : Bucket) (t : ℚ) : Bucket × Bool :=
  let avail := min (burst : ℚ) (k.tokens + limit * (t - k.last))
  if 1 ≤ avail then (⟨avail - 1, t⟩, true) else (⟨avail, t⟩, false)

/-- A `rateLimitedListener` with its limiter. -/
structure Limited where
  ln : RateLimitedListener
  lim : Bucket
  deriving DecidableEq, Repr

/-- `newRateLimitedListener(ln, limit, burst)`, made at time `t`. -/
def Limited.new (burst : Nat) (t : ℚ) : Limited := ⟨newRateLimitedListener, .full burst t⟩

/-- `Accept` called at time `t`, the wrapped listener answering `raw`. -/
def Limited.accept (limit : ℚ) (burst : Nat) (x : Limited) (t : ℚ) (raw : RawAccept) :
    Limited × Accepted × Bool :=
  if raw = .conn then
    let (lim, allow) := x.lim.allow limit burst t
    let (ln, r) := x.ln.accept raw allow
    (⟨ln, lim⟩, r)
  else
    -- the error is returned before `Allow` is reached, so the answer passed is never read
    let (ln, r) := x.ln.accept raw true
    (⟨ln, x.lim⟩, r)

/-- One call of `Accept`: when it is made, and what the wrapped listener's `Accept` returns. -/
structure Call where
  time : ℚ
  raw : RawAccept
  deriving DecidableEq, Repr

/-- One `Accept` call as it ended: what it returned, and whether it closed the connection it took
before returning. -/
structure Outcome where
  call : Call
  result : Accepted
  closed : Bool
  deriving DecidableEq, Repr

/-- A sequence of `Accept` calls on one listener, each with how it ended. -/
def Limited.acceptEach (limit : ℚ) (burst : Nat) : Limited → List Call → List Outcome
  | _, [] => []
  | x, c :: cs =>
    let y := x.accept limit burst c.time c.raw
    ⟨c, y.2.1, y.2.2⟩ :: acceptEach limit burst y.1 cs

def returnedIn (u v : ℚ) (trace : List Outcome) : Nat :=
  (trace.filter fun p => u ≤ p.call.time ∧ p.call.time ≤ v ∧ p.result = .conn).length

@[simp] theorem returnedIn_nil (u v : ℚ) : returnedIn u v [] = 0 := rfl

theorem returnedIn_cons (u v : ℚ) (p : Outcome) (trace : List Outcome) :
    returnedIn u v (p :: trace) =
      (if u ≤ p.call.time ∧ p.call.time ≤ v ∧ p.result = .conn then 1 else 0) + returnedIn u v trace := by
  unfold returnedIn
  rw [List.filter_cons]
  split_ifs with h <;> simp_all [Nat.add_comm]

theorem returnedIn_eq_zero {u v : ℚ} {trace : List Outcome}
    (h : ∀ p ∈ trace, v < p.call.time) : returnedIn u v trace = 0 := by
  unfold returnedIn
  rw [List.length_eq_zero, List.filter_eq_nil_iff]
  intro p hp
  have := h p hp
  simp only [decide_eq_true_eq, not_and]
  intro _ hv
  exact absurd hv (not_le.2 this)

section Bucket

variable {limit : ℚ} {k : Bucket} {t : ℚ}

theorem allow_spec (burst : Nat) (hLimit : 0 ≤ limit) (hTokens : 0 ≤ k.tokens) (hLast : k.last ≤ t) :
    (k.allow limit burst t).1.last = t ∧ 0 ≤ (k.allow limit burst t).1.tokens ∧
      (k.allow limit burst t).1.tokens + (if (k.allow limit burst t).2 then 1 else 0) ≤
        k.tokens + limit * (t - k.last) ∧
      (k.allow limit burst t).1.tokens + (if (k.allow limit burst t).2 then 1 else 0) ≤ burst := by
  have hGain : 0 ≤ limit * (t - k.last) := mul_nonneg hLimit (sub_nonneg.2 hLast)
  have hCap := min_le_left (burst : ℚ) (k.tokens + limit * (t - k.last))
  have hFill := min_le_right (burst : ℚ) (k.tokens + limit * (t - k.last))
  have hAvail : 0 ≤ min (burst : ℚ) (k.tokens + limit * (t - k.last)) :=
    le_min (Nat.cast_nonneg _) (by linarith)
  dsimp only [Bucket.allow]
  by_cases h : 1 ≤ min (burst : ℚ) (k.tokens + limit * (t - k.last))
  · simp only [if_pos h, if_true, true_and]
    exact ⟨by linarith, by linarith, by linarith⟩
  · simp only [if_neg h, Bool.false_eq_true, if_false, add_zero, true_and]
    exact ⟨hAvail, hFill, hCap⟩

theorem allow_admits {burst : Nat} (hBurst : 1 ≤ burst) (h : 1 ≤ k.tokens + limit * (t - k.last)) :
    (k.allow limit burst t).2 = true := by
  have hCap : (1 : ℚ) ≤ burst := by exact_mod_cast hBurst
  dsimp only [Bucket.allow]
  rw [if_pos (le_min hCap h)]

end Bucket

section Accept

theorem accept_spec (limit : ℚ) (burst : Nat) (x : Limited) (t : ℚ) (raw : RawAccept) :
    raw = .conn ∧ (x.accept limit burst t raw).1.lim = (x.lim.allow limit burst t).1 ∧
        (x.accept limit burst t raw).2 =
          (if (x.lim.allow limit burst t).2 then (.conn, false) else (.error .limitedConn, true)) ∨
      raw ≠ .conn ∧ (x.accept limit burst t raw).1.lim = x.lim ∧
        (x.accept limit burst t raw).2.1 ≠ .conn := by
  unfold Limited.accept
  cases raw with
  | conn => cases h : (x.lim.allow limit burst t).2 <;> simp [RateLimitedListener.accept, h]
  | temporary => simp [RateLimitedListener.accept]
  | failure => simp [RateLimitedListener.accept]

theorem returned_le_admitted (limit : ℚ) (burst : Nat) (u v : ℚ) (x : Limited) (c : Call) :
    ((if u ≤ c.time ∧ c.time ≤ v ∧ (x.accept limit burst c.time c.raw).2.1 = .conn then 1 else 0 :
        Nat) : ℚ) ≤ if (x.lim.allow limit burst c.time).2 then 1 else 0 := by
  rcases accept_spec limit burst x c.time c.raw with ⟨-, -, hRes⟩ | ⟨-, -, hRes⟩ <;>
    split_ifs <;> simp_all

variable {limit : ℚ} {burst : Nat}

theorem mem_acceptEach {p : Outcome} :
    ∀ {cs : List Call} {x : Limited}, p ∈ x.acceptEach limit burst cs →
      p.call ∈ cs ∧ ∃ y : Limited, (p.result, p.closed) = (y.accept limit burst p.call.time p.call.raw).2
  | [], _, h => absurd h (List.not_mem_nil _)
  | c :: cs, x, h => by
    rcases List.mem_cons.1 h with rfl | h
    · exact ⟨List.mem_cons_self _ _, x, rfl⟩
    · obtain ⟨hc, hy⟩ := mem_acceptEach h
      exact ⟨List.mem_cons_of_mem _ hc, hy⟩

theorem returnedIn_after {u v : ℚ} {x : Limited} {s : ℚ} {cs : List Call} (hv : v < s)
    (hChain : List.Chain (· ≤ ·) s (cs.map Call.time)) :
    returnedIn u v (x.acceptEach limit burst cs) = 0 := by
  have hAfter : ∀ t ∈ cs.map Call.time, s ≤ t :=
    (List.pairwise_cons.1 (List.chain_iff_pairwise.1 hChain)).1
  refine returnedIn_eq_zero fun p hp => ?_
  exact lt_of_lt_of_le hv (hAfter _ (List.mem_map_of_mem _ (mem_acceptEach hp).1))

end Accept

section Window

variable {limit : ℚ} (burst : Nat) (hLimit : 0 ≤ limit) (u v : ℚ)
include hLimit

theorem returnedIn_le_tokens :
    ∀ (cs : List Call) (x : Limited) (s : ℚ), 0 ≤ x.lim.tokens → x.lim.last ≤ s →
      x.lim.last ≤ v → List.Chain (· ≤ ·) s (cs.map Call.time) →
      (returnedIn u v (x.acceptEach limit burst cs) : ℚ) ≤ x.lim.tokens + limit * (v - x.lim.last)
  | [], x, _, hTokens, _, hv, _ => by
    have : 0 ≤ limit * (v - x.lim.last) := mul_nonneg hLimit (sub_nonneg.2 hv)
    simp only [Limited.acceptEach, returnedIn_nil, Nat.cast_zero]
    linarith
  | c :: cs, x, s, hTokens, hs, hv, hChain => by
    obtain ⟨hsc, hChain⟩ := List.chain_cons.1 hChain
    have hRest : 0 ≤ limit * (v - x.lim.last) := mul_nonneg hLimit (sub_nonneg.2 hv)
    by_cases hcv : c.time ≤ v
    swap
    · rw [Limited.acceptEach, returnedIn_cons, if_neg (by tauto),
        returnedIn_after (lt_of_not_le hcv) hChain]
      simp only [Nat.cast_zero, zero_add]
      linarith
    rw [Limited.acceptEach, returnedIn_cons, Nat.cast_add]
    rcases accept_spec limit burst x c.time c.raw with ⟨-, hLim, -⟩ | ⟨-, hLim, hRes⟩
    · obtain ⟨hLast, hTokens', hGain, -⟩ := allow_spec burst hLimit hTokens (hs.trans hsc)
      have ih := returnedIn_le_tokens cs _ c.time (hLim ▸ hTokens') (by rw [hLim, hLast])
        (by rw [hLim, hLast]; exact hcv) hChain
      rw [hLim, hLast] at ih
      have hStep := returned_le_admitted limit burst u v x c
      have : limit * (c.time - x.lim.last) + limit * (v - c.time) = limit * (v - x.lim.last) := by
        rw [← mul_add, sub_add_sub_cancel']
      linarith
    · have ih := returnedIn_le_tokens cs _ c.time (hLim ▸ hTokens) (by rw [hLim]; exact hs.trans hsc)
        (by rw [hLim]; exact hv) hChain
      rw [hLim] at ih
      rw [if_neg (by tauto), Nat.cast_zero, zero_add]
      exact ih

theorem returnedIn_le_burst (huv : u ≤ v) :
    ∀ (cs : List Call) (x : Limited) (s : ℚ), 0 ≤ x.lim.tokens → x.lim.tokens ≤ burst →
      x.lim.last ≤ s → List.Chain (· ≤ ·) s (cs.map Call.time) →
      (returnedIn u v (x.acceptEach limit burst cs) : ℚ) ≤ burst + limit * (v - u)
  | [], _, _, _, _, _, _ => by
    have : 0 ≤ limit * (v - u) := mul_nonneg hLimit (sub_nonneg.2 huv)
    have : (0 : ℚ) ≤ burst := Nat.cast_nonneg _
    simp only [Limited.acceptEach, returnedIn_nil, Nat.cast_zero]
    linarith
  | c :: cs, x, s, hTokens, hFull, hs, hChain => by
    obtain ⟨hsc, hChain⟩ := List.chain_cons.1 hChain
    have hWindow : 0 ≤ limit * (v - u) := mul_nonneg hLimit (sub_nonneg.2 huv)
    have hBurst : (0 : ℚ) ≤ burst := Nat.cast_nonneg _
    by_cases hcv : c.time ≤ v
    swap
    · rw [Limited.acceptEach, returnedIn_cons, if_neg (by tauto),
        returnedIn_after (lt_of_not_le hcv) hChain]
      simp only [Nat.cast_zero, zero_add]
      linarith
    rw [Limited.acceptEach, returnedIn_cons, Nat.cast_add]
    rcases accept_spec limit burst x c.time c.raw with ⟨-, hLim, -⟩ | ⟨-, hLim, hRes⟩
    · obtain ⟨hLast, hTokens', -, hCap⟩ := allow_spec burst hLimit hTokens (hs.trans hsc)
      by_cases hcu : u ≤ c.time
      · -- the first call in the window: what it finds is at most `burst`
        have hBound := returnedIn_le_tokens burst hLimit u v cs _ c.time (hLim ▸ hTokens')
          (by rw [hLim, hLast]) (by rw [hLim, hLast]; exact hcv) hChain
        rw [hLim, hLast] at hBound
        have hStep := returned_le_admitted limit burst u v x c
        have : limit * (v - c.time) ≤ limit * (v - u) :=
          mul_le_mul_of_nonneg_left (by linarith) hLimit
        linarith
      · have hFull' : (x.lim.allow limit burst c.time).1.tokens ≤ burst := by
          split_ifs at hCap <;> linarith
        have ih := returnedIn_le_burst huv cs _ c.time (hLim ▸ hTokens') (hLim ▸ hFull')
          (by rw [hLim, hLast]) hChain
        rw [if_neg (by tauto), Nat.cast_zero, zero_add]
        exact ih
    · have ih := returnedIn_le_burst huv cs _ c.time (hLim ▸ hTokens) (hLim ▸ hFull)
        (by rw [hLim]; exact hs.trans hsc) hChain
      rw [if_neg (by tauto), Nat.cast_zero, zero_add]
      exact ih

end Window

theorem accept_admits_at_most_bucket (limit : ℚ) (burst : Nat) (hLimit : 0 ≤ limit) (t₀ : ℚ)
    (calls : List Call) (hTimes : List.Chain (· ≤ ·) t₀ (calls.map Call.time)) (u d : ℚ)
    (hd : 0 ≤ d) :
    (returnedIn u (u + d) ((Limited.new burst t₀).acceptEach limit burst calls) : ℚ) ≤
        burst + limit * d ∧
      ∀ p ∈ (Limited.new burst t₀).acceptEach limit burst calls, p.call.raw = .conn →
        p.result ≠ .conn → p.closed = true ∧ p.result = .error .limitedConn := by
  refine ⟨?_, fun p hp hConn hRet => ?_⟩
  · have h := returnedIn_le_burst burst hLimit u (u + d) (by linarith) calls (Limited.new burst t₀) t₀
      (Nat.cast_nonneg _) le_rfl le_rfl hTimes
    rwa [add_sub_cancel_left] at h
  · obtain ⟨-, y, hy⟩ := mem_acceptEach hp
    rcases accept_spec limit burst y p.call.time p.call.raw with ⟨-, -, hRes⟩ | ⟨hRaw, -⟩
    · rw [hRes] at hy
      split_ifs at hy <;> simp only [Prod.mk.injEq] at hy
      · exact absurd hy.1 hRet
      · exact ⟨hy.2, hy.1⟩
    · exact absurd hConn hRaw

def burstCalls : List Call := List.replicate 100 ⟨0, .conn⟩

theorem accept_admits_at_most_bucket_burst :
    (0 : ℚ) ≤ 10 ∧ List.Chain (· ≤ ·) 0 (burstCalls.map Call.time) ∧ (0 : ℚ) ≤ 0 ∧
      (returnedIn 0 (0 + 0) ((Limited.new 5 0).acceptEach 10 5 burstCalls) : ℚ) ≤
          ((5 : Nat) : ℚ) + 10 * 0 ∧
        ∀ p ∈ (Limited.new 5 0).acceptEach 10 5 burstCalls, p.call.raw = .conn →
          p.result ≠ .conn → p.closed = true ∧ p.result = .error .limitedConn :=
  have hTimes : List.Chain (· ≤ ·) (0 : ℚ) (burstCalls.map Call.time) := by
    simp [burstCalls, List.map_replicate]
  ⟨by decide, hTimes, le_rfl, accept_admits_at_most_bucket 10 5 (by decide) 0 burstCalls hTimes 0 0 le_rfl⟩

/- The bound is reached: five of the hundred are returned, all in the first instant. -/
example : returnedIn 0 0 ((Limited.new 5 0).acceptEach 10 5 burstCalls) = 5 := by
  with_unfolding_all decide

/-! ## Connections at the rate are all returned -/

def connTimes (calls : List Call) : List ℚ := (calls.filter fun c => c.raw = .conn).map Call.time

section Spaced

variable {limit : ℚ} (burst : Nat) (hLimit : 0 ≤ limit) (hBurst : 1 ≤ burst)
include hLimit hBurst

theorem spaced_returned :
    ∀ (cs : List Call) (x : Limited) (s : ℚ), 0 ≤ x.lim.tokens → x.lim.last ≤ s →
      List.Chain (· ≤ ·) s (cs.map Call.time) →
      (1 ≤ x.lim.tokens ∧ (connTimes cs).Chain' (fun a b => 1 ≤ limit * (b - a)) ∨
        (connTimes cs).Chain (fun a b => 1 ≤ limit * (b - a)) x.lim.last) →
      ∀ p ∈ x.acceptEach limit burst cs, p.call.raw = .conn → p.result = .conn
  | [], _, _, _, _, _, _, _, hp, _ => absurd hp (List.not_mem_nil _)
  | c :: cs, x, s, hTokens, hs, hChain, hReady, p, hp, hConn => by
    obtain ⟨hsc, hChain⟩ := List.chain_cons.1 hChain
    have hLast : x.lim.last ≤ c.time := hs.trans hsc
    simp only [Limited.acceptEach] at hp
    rcases accept_spec limit burst x c.time c.raw with ⟨hc, hLim, hRes⟩ | ⟨hc, hLim, -⟩
    · have hTimes : connTimes (c :: cs) = c.time :: connTimes cs := by simp [connTimes, hc]
      rw [hTimes] at hReady
      have hAdmit : (x.lim.allow limit burst c.time).2 = true := by
        refine allow_admits hBurst ?_
        have hGain := mul_nonneg hLimit (sub_nonneg.2 hLast)
        rcases hReady with ⟨hFull, -⟩ | hGap
        · linarith
        · have := List.rel_of_chain_cons hGap
          linarith
      have hNext : (connTimes cs).Chain (fun a b => 1 ≤ limit * (b - a)) c.time := by
        rcases hReady with ⟨-, h⟩ | h
        · exact h
        · exact (List.chain_cons.1 h).2
      obtain ⟨hLast', hTokens', -, -⟩ := allow_spec burst hLimit hTokens hLast
      rcases List.mem_cons.1 hp with rfl | hp
      · simp only [hAdmit, if_true] at hRes
        simp [hRes]
      · exact spaced_returned cs _ c.time (hLim ▸ hTokens') (by rw [hLim, hLast']) hChain
          (.inr (by rw [hLim, hLast']; exact hNext)) p hp hConn
    · have hTimes : connTimes (c :: cs) = connTimes cs := by simp [connTimes, hc]
      rw [hTimes] at hReady
      rcases List.mem_cons.1 hp with rfl | hp
      · exact absurd hConn hc
      · exact spaced_returned cs _ c.time (hLim ▸ hTokens) (by rw [hLim]; exact hLast) hChain
          (hLim ▸ hReady) p hp hConn

end Spaced

theorem accept_returns_spaced (limit : ℚ) (burst : Nat) (hLimit : 0 ≤ limit) (hBurst : 1 ≤ burst)
    (t₀ : ℚ) (calls : List Call) (hTimes : List.Chain (· ≤ ·) t₀ (calls.map Call.time))
    (hSpaced : (connTimes calls).Chain' fun a b => 1 ≤ limit * (b - a)) :
    ∀ p ∈ (Limited.new burst t₀).acceptEach limit burst calls, p.call.raw = .conn → p.result = .conn :=
  spaced_returned burst hLimit hBurst calls _ t₀ (Nat.cast_nonneg _) le_rfl hTimes
    (.inl ⟨show (1 : ℚ) ≤ burst by exact_mod_cast hBurst, hSpaced⟩)

def spacedCalls : List Call :=
  [⟨0, .conn⟩, ⟨1 / 10, .temporary⟩, ⟨1 / 10, .conn⟩, ⟨2 / 10, .conn⟩, ⟨3 / 10, .conn⟩]

theorem accept_returns_spaced_rate :
    (0 : ℚ) ≤ 10 ∧ 1 ≤ 1 ∧ List.Chain (· ≤ ·) 0 (spacedCalls.map Call.time) ∧
      (connTimes spacedCalls).Chain' (fun a b => 1 ≤ 10 * (b - a)) ∧
      ∀ p ∈ (Limited.new 1 0).acceptEach 10 1 spacedCalls, p.call.raw = .conn → p.result = .conn :=
  have hTimes : List.Chain (· ≤ ·) (0 : ℚ) (spacedCalls.map Call.time) := by
    simp [spacedCalls]; norm_num
  have hSpaced : (connTimes spacedCalls).Chain' (fun a b => (1 : ℚ) ≤ 10 * (b - a)) := by
    simp [connTimes, spacedCalls]; norm_num
  ⟨by decide, le_rfl, hTimes, hSpaced, accept_returns_spaced 10 1 (by decide) le_rfl 0 spacedCalls hTimes hSpaced⟩

end MirageNavi.Tls
