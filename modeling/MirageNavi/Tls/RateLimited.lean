import Mathlib.Data.List.Basic

/-! # The rate-limited TLS accept path

`rateLimitedListener.Accept` takes the next connection from the wrapped listener and asks the
token bucket whether to admit it; a refused connection is closed and reported to the caller as
`errLimitedConn`. The caller is `http.Server.Serve`, reached through `srv.ServeTLS(rln, "", "")`,
whose accept loop retries only on errors that are `net.Error` values with `Temporary()` true and
returns every other error. `errLimitedConn` is a plain `errors.New` value, so the first refusal
ends the loop, and with it the listener: the deferred closes of `Serve` and
`rateLimitedListenAndServeTLS` run.

The bucket's answers are an input of every accept here; every sequence of answers is allowed.
-/

namespace MirageNavi.Tls

set_option autoImplicit false

/-- What the wrapped listener's `Accept` hands back: a new TCP connection, an error that is a
`net.Error` with `Temporary()` true, or any other error, `net.ErrClosed` of a closed listener
among them. -/
inductive RawAccept
  | conn
  | temporary
  | failure
  deriving DecidableEq, Repr

/-- The errors `rateLimitedListener.Accept` returns. -/
inductive AcceptError
  | temporary
  | failure
  | limitedConn
  deriving DecidableEq, Repr

/-- The counters of one `rateLimitedListener`, published by `ExpVar` as
`counter_accepted_connections` and `counter_rejected_connections`. -/
structure RateLimitedListener where
  numAccepts : Nat
  numRejects : Nat
  deriving DecidableEq, Repr

def newRateLimitedListener : RateLimitedListener := ⟨0, 0⟩

/-- What `Accept` returns: the connection, or an error. -/
inductive Accepted
  | conn
  | error (e : AcceptError)
  deriving DecidableEq, Repr

/-- `rateLimitedListener.Accept`, with `allow` the answer of `l.lim.Allow()`: the counters after
the call, what it returns, and whether it has called `cn.Close()` on the connection it took from
the wrapped listener by the time it returns. -/
def RateLimitedListener.accept (l : RateLimitedListener) (raw : RawAccept) (allow : Bool) :
    RateLimitedListener × Accepted × Bool :=
  match raw with
  | .conn =>
    if !allow then ({ l with numRejects := l.numRejects + 1 }, .error .limitedConn, true)
    else ({ l with numAccepts := l.numAccepts + 1 }, .conn, false)
  | .temporary => (l, .error .temporary, false)
  | .failure => (l, .error .failure, false)

theorem accept_counts (l : RateLimitedListener) (raw : RawAccept) (allow : Bool) :
    let r := l.accept raw allow
    (r.2.2 = true ↔ r.2.1 = .error .limitedConn) ∧ (raw = .conn ↔ r.2.1 = .conn ∨ r.2.2 = true) ∧
    r.1.numAccepts = l.numAccepts + (if r.2.1 = .conn then 1 else 0) ∧
    r.1.numRejects = l.numRejects + (if r.2.2 then 1 else 0) := by
  cases raw <;> cases allow <;> simp [RateLimitedListener.accept]

/-- The errors `rateLimitedListenAndServeTLS` can return: `net.Listen`'s, `http.ErrServerClosed`,
`errLimitedConn`, and any other error of `Accept`. -/
inductive ServeError
  | listen
  | serverClosed
  | limitedConn
  | accept
  deriving DecidableEq, Repr

/-- What `http.Server.Serve` does with one result of `Accept`: start `c.serve` on the connection
and accept again, sleep the back-off and accept again, or return an error. -/
inductive ServeStep
  | serve
  | retry
  | stop (e : ServeError)
  deriving DecidableEq, Repr

/-- The error branch of the accept loop of `http.Server.Serve`: `ErrServerClosed` once the server
is shutting down, a retry for a temporary `net.Error`, and the error itself otherwise. -/
def onAccept (shuttingDown : Bool) : Accepted → ServeStep
  | .conn => .serve
  | .error e =>
    if shuttingDown then .stop .serverClosed
    else match e with
      | .temporary => .retry
      | .failure => .stop .accept
      | .limitedConn => .stop .limitedConn

/-- One arrival at the accept loop: the wrapped listener's outcome and the bucket's answer. -/
structure Arrival where
  raw : RawAccept
  allow : Bool
  deriving DecidableEq, Repr

/-- The accept loop of `srv.Serve(rln)` while the server is not shutting down: the listener's
counters, the number of connections handed to `c.serve`, and the error `Serve` returns, `none`
while the arrivals last. -/
def serve (l : RateLimitedListener) : List Arrival → RateLimitedListener × Nat × Option ServeError
  | [] => (l, 0, none)
  | a :: rest =>
    let r := l.accept a.raw a.allow
    match onAccept false r.2.1 with
    | .serve => let t := serve r.1 rest; (t.1, t.2.1 + 1, t.2.2)
    | .retry => serve r.1 rest
    | .stop e => (r.1, 0, some e)

theorem serve_refused (l : RateLimitedListener) (rest : List Arrival) :
    serve l (⟨.conn, false⟩ :: rest) = (⟨l.numAccepts, l.numRejects + 1⟩, 0, some .limitedConn) :=
  rfl

theorem serve_ends_at_refusal (l : RateLimitedListener) (pre post : List Arrival) :
    serve l (pre ++ ⟨.conn, false⟩ :: post) = serve l (pre ++ [⟨.conn, false⟩]) ∧
    (serve l (pre ++ [⟨.conn, false⟩])).2.2.isSome := by
  induction pre generalizing l with
  | nil => exact ⟨rfl, rfl⟩
  | cons a pre ih =>
    obtain ⟨hSame, hStops⟩ := ih (l.accept a.raw a.allow).1
    rw [List.cons_append, List.cons_append, serve, serve]
    split
    · exact ⟨by rw [hSame], hStops⟩
    · exact ⟨hSame, hStops⟩
    · exact ⟨rfl, rfl⟩

end MirageNavi.Tls
