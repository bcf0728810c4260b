import MirageNavi.Derper.Setup

/-! # The derper process as a transition system

The state holds `main`'s position in its loop, and for every epoch the three tasks of its
`errgroup.Group` (the serve task, the signal task `sigFunc` and the renewal task), its listener,
its `http.Server` and its `sigc` channel. An action is one atomic step of one goroutine, or one
event of the outside world: a signal, the passing of time, a client. `step` is `none` where the
action is not enabled. Nothing stops the goroutines an epoch leaves behind (the `Cronjob`, the
certmagic cache, the `signal.Notify` registration), so they are recorded and never removed; an
`errgroup.Group` made with `new` has no context, so `Wait` returns only when all three tasks have.

The process begins at `flag.Parse()`, which ends it on `-h` or a bad flag (`launch`). A signal
that no registered channel takes gets the runtime's default action: `SIGHUP`, which `main` never
registers, always ends the process, and `SIGINT`, `SIGTERM` and `SIGQUIT` do before the first
`Notify`; `SIGUSR2` is ignored.
-/

namespace MirageNavi.Derper

open MirageNavi.Tls MirageNavi.Store

set_option autoImplicit false

/-- The renewal ticker's period. -/
def tickPeriod : Nat := 6 * 3600

/-- The renewal threshold, `time.Hour * 24 * 7`. -/
def renewBefore : Nat := 7 * 24 * 3600

/-- Where `main` stands: at the head of the `for` loop; with the serve task started and
`signal.Notify` and the other two tasks next; or in `errorGroup.Wait()`. -/
inductive MainPc
  | top
  | notify
  | wait
  deriving DecidableEq, Repr

/-- Where `rateLimitedListenAndServeTLS` stands: before `net.Listen`; with its listener bound and
`Serve` about to register it with the server; in the accept loop of `Serve`; or returned. -/
inductive ServePc
  | listen
  | track
  | accept
  | done (err : ServeError)
  deriving DecidableEq, Repr

/-- Where the renewal task stands: in `for range ticker.C`, in `sigc <- syscall.SIGUSR2`, or
returned. -/
inductive TickerPc
  | ticking
  | sending
  | done
  deriving DecidableEq, Repr

inductive Bind
  | unbound
  | bound
  | closed
  deriving DecidableEq, Repr

/-- One epoch: what its loop pass built and the state of its three tasks. `server` numbers the
`derp.Server` it made in creation order; `tls` tells whether `httpsrv.TLSConfig` is set, `runDERP`
whether `/derp` is `derphttp.Handler(s)` rather than the 404 handler; `signal` is `some true` while
`sigFunc` waits on `sigc` and `some false` once it has returned; `tracked` tells whether the
listener is registered with `httpsrv` (`trackListener`), `shuttingDown` whether `httpsrv.Close`
has run; `origin` holds the flags of the loop pass that built the epoch and what the outside
answered to its `obtainCert`. -/
structure Epoch where
  server : Nat
  cfg : Config
  cert : Cert
  tls : Bool
  runDERP : Bool
  cronjob : Bool
  serve : Option ServePc
  signal : Option Bool
  ticker : Option TickerPc
  listener : Bind
  tracked : Bool
  shuttingDown : Bool
  rln : RateLimitedListener
  nextTick : Nat
  origin : Option (Flags × CertEnv)
  deriving DecidableEq, Repr

def Epoch.blank : Epoch :=
  ⟨0, Config.zero, ⟨false, none, 0⟩, false, false, false, none, none, none, .unbound, false, false,
    newRateLimitedListener, 0, none⟩

/-- A connection the serve task handed to `c.serve`: its epoch, the `derp.Server` its `/derp`
request was hijacked into, and whether neither side has closed it. -/
structure Conn where
  epoch : Nat
  server : Option Nat
  live : Bool
  deriving DecidableEq, Repr

/-- The process: how it ended, if it has; the current epoch and where `main` stands; the epochs;
the one-slot buffer of each epoch's `sigc`; the channels registered with `signal.Notify`, oldest
first, none of them ever unregistered; the connections; the epoch whose listener's counters were
published under `tls_listener`; how many `derp.Server`s were made; one entry per
`go serveSTUN(...)`, telling whether its `ListenPacket` has succeeded; the flags, the files and
the clock. -/
structure Proc where
  exit : Option Exit
  epoch : Nat
  main : MainPc
  ep : Nat → Epoch
  chan : Nat → Option Signal
  notified : List Nat
  conns : List Conn
  published : Option Nat
  servers : Nat
  stun : List Bool
  flags : Flags
  files : Files
  now : Nat

/-- The process once `flag.Parse()` has returned, with the flags it set. -/
def start (fl : Flags) (files : Files) (now : Nat) : Proc :=
  ⟨none, 0, .top, fun _ => Epoch.blank, fun _ => none, [], [], none, 0, [], fl, files, now⟩

/-- How `flag.Parse()` ends under `flag.ExitOnError`: it returns, or it prints the usage and calls
`os.Exit(0)` for `-h` or `-help`, or `os.Exit(2)` for any other error in the command line. -/
inductive ParseEnd
  | ok
  | help
  | bad
  deriving DecidableEq, Repr

/-- The process from the first statement of `main`, `flag.Parse()`; `fl` is what it set. -/
def launch (fl : Flags) (parse : ParseEnd) (files : Files) (now : Nat) : Proc :=
  match parse with
  | .ok => start fl files now
  | .help => { start fl files now with exit := some (.code 0) }
  | .bad => { start fl files now with exit := some (.code 2) }

/-- One atomic step. `main` runs the loop body up to `errorGroup.Go(serve)`, registers `sigc` and
starts the signal and renewal tasks, or returns from `errorGroup.Wait()` and checks its error.
Epoch `e`'s serve task binds its listener, registers it, or makes one `Accept` and acts on its
result; its `sigFunc` takes the signal in `sigc`; its renewal task ticks or sends `SIGUSR2`. The
operating system delivers a signal, time passes, the `/derp` handler hijacks connection `i` into
its epoch's `derp.Server`, the client of connection `i` closes it, or a STUN server's
`ListenPacket` returns. -/
inductive Act
  | setup (env : SetupEnv)
  | notify
  | wait
  | listen (e : Nat) (ok : Bool)
  | track (e : Nat)
  | accept (e : Nat) (raw : RawAccept) (allow : Bool)
  | receive (e : Nat)
  | tick (e : Nat)
  | send (e : Nat)
  | deliver (sig : Signal)
  | advance (d : Nat)
  | hijack (i : Nat)
  | hangup (i : Nat)
  | stunListen (i : Nat) (ok : Bool)
  deriving DecidableEq, Repr

namespace Epoch

/-- `httpsrv.Close()` on the epoch's server: it shuts down and closes the listener it has
registered. -/
def close (x : Epoch) : Epoch :=
  { x with shuttingDown := true,
           listener := if x.tracked ∧ x.listener = .bound then .closed else x.listener }

/-- The epoch a loop pass builds: its server is the `servers`-th, and its serve task starts. -/
def begin (servers : Nat) (b : Built) (cert : CertEnv) : Epoch :=
  { blank with server := servers, cfg := b.cfg, cert := b.cert, tls := true,
               runDERP := b.flags.runDERP, cronjob := b.cronjob, serve := some .listen,
               origin := some (b.flags, cert) }

/-- The signal task waits on `sigc`; the renewal task runs in `letsencrypt` mode, its first tick
one period away. -/
def notify (letsencrypt : Bool) (now : Nat) (x : Epoch) : Epoch :=
  { x with signal := some true, ticker := if letsencrypt then some .ticking else none,
           nextTick := now + tickPeriod }

/-- The serve task returns `err`; the deferred closes of `Serve` and of
`rateLimitedListenAndServeTLS` close its listener. -/
def serveDone (x : Epoch) (err : ServeError) : Epoch :=
  { x with serve := some (.done err), tracked := false,
           listener := if x.listener = .bound then .closed else x.listener }

/-- All three tasks of the epoch's group have returned. -/
def Finished (x : Epoch) : Prop :=
  (∃ err, x.serve = some (.done err)) ∧ x.signal = some false ∧
    (x.ticker = none ∨ x.ticker = some .done)

instance (x : Epoch) : Decidable x.Finished :=
  decidable_of_iff ((match x.serve with | some (.done _) => true | _ => false) &&
      x.signal == some false && (x.ticker == none || x.ticker == some .done)) (by
    unfold Finished
    rcases x with ⟨_, _, _, _, _, _, serve, signal, ticker, _⟩
    rcases serve with _ | _ | _ | _ | err <;> simp)

end Epoch

namespace Proc

def setEp (s : Proc) (e : Nat) (f : Epoch → Epoch) : Proc :=
  { s with ep := Function.update s.ep e (f (s.ep e)) }

@[simp] theorem setEp_ep (s : Proc) (e : Nat) (f : Epoch → Epoch) (e' : Nat) :
    (s.setEp e f).ep e' = if e' = e then f (s.ep e) else s.ep e' := by
  simp [setEp, Function.update_apply]

section SetEp

variable (s : Proc) (e : Nat) (f : Epoch → Epoch)

@[simp] theorem setEp_exit : (s.setEp e f).exit = s.exit := rfl
@[simp] theorem setEp_epoch : (s.setEp e f).epoch = s.epoch := rfl
@[simp] theorem setEp_main : (s.setEp e f).main = s.main := rfl
@[simp] theorem setEp_chan : (s.setEp e f).chan = s.chan := rfl
@[simp] theorem setEp_notified : (s.setEp e f).notified = s.notified := rfl
@[simp] theorem setEp_conns : (s.setEp e f).conns = s.conns := rfl
@[simp] theorem setEp_published : (s.setEp e f).published = s.published := rfl
@[simp] theorem setEp_servers : (s.setEp e f).servers = s.servers := rfl
@[simp] theorem setEp_stun : (s.setEp e f).stun = s.stun := rfl
@[simp] theorem setEp_flags : (s.setEp e f).flags = s.flags := rfl
@[simp] theorem setEp_files : (s.setEp e f).files = s.files := rfl
@[simp] theorem setEp_now : (s.setEp e f).now = s.now := rfl

end SetEp

/-- `httpsrv.Close()` also closes every connection the server still tracks; a hijacked
connection is no longer the server's. -/
def shutdown (s : Proc) (e : Nat) : Proc :=
  { s.setEp e Epoch.close with
    conns := s.conns.map fun c =>
      if c.epoch = e ∧ c.server = none then { c with live := false } else c }

/-- The loop body up to `errorGroup.Go(serve)`, from the state at the loop head. -/
def begin (s : Proc) (env : SetupEnv) : Proc :=
  match setup s.flags s.files env with
  | .error x => { s with exit := some x }
  | .ok b =>
    { s.setEp s.epoch (fun _ => Epoch.begin s.servers b env.cert) with
      flags := b.flags, files := b.files, servers := s.servers + 1, main := .notify,
      stun := if b.stun then s.stun ++ [false] else s.stun }

/-- `sigc := make(chan os.Signal, 1)`, `signal.Notify(sigc, SIGINT, SIGTERM, SIGQUIT)`, and the
signal and renewal tasks started. -/
def notify (s : Proc) : Proc :=
  { s.setEp s.epoch (Epoch.notify (s.flags.certMode = .letsencrypt) s.now) with
    chan := Function.update s.chan s.epoch none, notified := s.notified ++ [s.epoch],
    main := .wait }

/-- The answer of every `Notify` registration to a delivered signal: a non-blocking send. -/
def deliverTo (s : Proc) (sig : Signal) : Nat → Option Signal :=
  fun c => if c ∈ s.notified ∧ s.chan c = none then some sig else s.chan c

end Proc

open Proc

/-- One atomic step of the process. -/
def step (s : Proc) (a : Act) : Option Proc :=
  if s.exit.isSome then none else
  match a with
  | .setup env => if s.main = .top then some (s.begin env) else none
  | .notify => if s.main = .notify then some s.notify else none
  | .wait =>
    if s.main = .wait ∧ (s.ep s.epoch).Finished then
      if (s.ep s.epoch).serve = some (.done .serverClosed) then
        some { s with epoch := s.epoch + 1, main := .top }
      else some { s with exit := some (.code 1) }
    else none
  | .listen e ok =>
    if (s.ep e).serve = some .listen then
      if ok then
        some { s.setEp e (fun x => { x with serve := some .track, listener := .bound }) with
          published := s.published.orElse fun _ => some e }
      else some (s.setEp e (fun x => { x with serve := some (.done .listen) }))
    else none
  | .track e =>
    if (s.ep e).serve = some .track then
      if (s.ep e).shuttingDown then some (s.setEp e fun x => x.serveDone .serverClosed)
      else some (s.setEp e fun x => { x with tracked := true, serve := some .accept })
    else none
  | .accept e raw allow =>
    if (s.ep e).serve = some .accept ∧ ((s.ep e).listener = .closed → raw = .failure) then
      let r := (s.ep e).rln.accept raw allow
      match onAccept (s.ep e).shuttingDown r.2.1 with
      | .serve => some { s.setEp e (fun x => { x with rln := r.1 }) with
          conns := s.conns ++ [⟨e, none, true⟩] }
      | .retry => some (s.setEp e fun x => { x with rln := r.1 })
      | .stop err => some (s.setEp e fun x => ({ x with rln := r.1 } : Epoch).serveDone err)
    else none
  | .receive e =>
    match (s.ep e).signal, s.chan e with
    | some true, some sig =>
      let s := { s with chan := Function.update s.chan e none }.shutdown e
      if sig = .sigusr2 then some (s.setEp e fun x => { x with signal := some false })
      else some { s with exit := some (.code 0) }
    | _, _ => none
  | .tick e =>
    if (s.ep e).ticker = some .ticking ∧ (s.ep e).nextTick ≤ s.now then
      if (s.ep e).cert.expires < s.now + renewBefore then
        some (s.setEp e fun x => { x with ticker := some .sending })
      else some (s.setEp e fun x => { x with
        nextTick := x.nextTick + tickPeriod * ((s.now - x.nextTick) / tickPeriod + 1) })
    else none
  | .send e =>
    if (s.ep e).ticker = some .sending ∧ s.chan e = none then
      some { s.setEp e (fun x => { x with ticker := some .done }) with
        chan := Function.update s.chan e (some .sigusr2) }
    else none
  | .deliver sig =>
    if sig = .sigusr2 then some s
    else if sig = .sighup ∨ s.notified = [] then
      some { s with exit := some sig.byDefault }
    else some { s with chan := s.deliverTo sig }
  | .advance d => some { s with now := s.now + d }
  | .hijack i =>
    match s.conns[i]? with
    | some c =>
      if c.live ∧ c.server = none ∧ (s.ep c.epoch).runDERP then
        some { s with conns := s.conns.set i { c with server := some (s.ep c.epoch).server } }
      else none
    | none => none
  | .hangup i =>
    match s.conns[i]? with
    | some c => if c.live then some { s with conns := s.conns.set i { c with live := false } }
      else none
    | none => none
  | .stunListen i ok =>
    if s.stun[i]? = some false then
      if ok then some { s with stun := s.stun.set i true } else some { s with exit := some (.code 1) }
    else none

def run (s : Proc) : List Act → Option Proc
  | [] => some s
  | a :: as => (step s a).bind fun s' => run s' as

def Reachable (s : Proc) : Prop := ∃ fl files now acts, run (start fl files now) acts = some s

/-! ## What each action can do

One lemma per action: its guard and the state it leads to. Every invariant below is proved from
these, never from `step` itself. -/

section Inversion

variable {s s' : Proc}

theorem exit_none_of_step {a : Act} (h : step s a = some s') : s.exit = none := by
  unfold step at h
  split at h
  · cases h
  · simpa using ‹¬s.exit.isSome = true›

theorem step_setup {env : SetupEnv} (h : step s (.setup env) = some s') :
    s.main = .top ∧ s' = s.begin env := by
  simp only [step] at h
  split_ifs at h with h1 h2
  cases h
  exact ⟨h2, rfl⟩

theorem step_notify (h : step s .notify = some s') : s.main = .notify ∧ s' = s.notify := by
  simp only [step] at h
  split_ifs at h with h1 h2
  cases h
  exact ⟨h2, rfl⟩

theorem step_wait (h : step s .wait = some s') :
    s.main = .wait ∧ (s.ep s.epoch).Finished ∧
      ((s.ep s.epoch).serve = some (.done .serverClosed) ∧
          s' = { s with epoch := s.epoch + 1, main := .top } ∨
        (s.ep s.epoch).serve ≠ some (.done .serverClosed) ∧ s' = { s with exit := some (.code 1) }) := by
  simp only [step] at h
  split_ifs at h with h1 h2 h3 <;> cases h
  · exact ⟨h2.1, h2.2, .inl ⟨h3, rfl⟩⟩
  · exact ⟨h2.1, h2.2, .inr ⟨h3, rfl⟩⟩

theorem step_listen {e : Nat} {ok : Bool} (h : step s (.listen e ok) = some s') :
    (s.ep e).serve = some .listen ∧
      (ok = true ∧ s' = { s.setEp e (fun x => { x with serve := some .track, listener := .bound }) with
          published := s.published.orElse fun _ => some e } ∨
        ok = false ∧ s' = s.setEp e (fun x => { x with serve := some (.done .listen) })) := by
  simp only [step] at h
  split_ifs at h with h1 h2 h3 <;> cases h
  · exact ⟨h2, .inl ⟨h3, rfl⟩⟩
  · exact ⟨h2, .inr ⟨by simpa using h3, rfl⟩⟩

theorem step_track {e : Nat} (h : step s (.track e) = some s') :
    (s.ep e).serve = some .track ∧
      ((s.ep e).shuttingDown = true ∧ s' = s.setEp e (fun x => x.serveDone .serverClosed) ∨
        (s.ep e).shuttingDown = false ∧
          s' = s.setEp e (fun x => { x with tracked := true, serve := some .accept })) := by
  simp only [step] at h
  split_ifs at h with h1 h2 h3 <;> cases h
  · exact ⟨h2, .inl ⟨h3, rfl⟩⟩
  · exact ⟨h2, .inr ⟨by simpa using h3, rfl⟩⟩

theorem step_accept {e : Nat} {raw : RawAccept} {allow : Bool}
    (h : step s (.accept e raw allow) = some s') :
    (s.ep e).serve = some .accept ∧ ((s.ep e).listener = .closed → raw = .failure) ∧
      let r := (s.ep e).rln.accept raw allow
      (onAccept (s.ep e).shuttingDown r.2.1 = .serve ∧
          s' = { s.setEp e (fun x => { x with rln := r.1 }) with
            conns := s.conns ++ [⟨e, none, true⟩] } ∨
        onAccept (s.ep e).shuttingDown r.2.1 = .retry ∧ s' = s.setEp e (fun x => { x with rln := r.1 }) ∨
        ∃ err, onAccept (s.ep e).shuttingDown r.2.1 = .stop err ∧
          s' = s.setEp e (fun x => ({ x with rln := r.1 } : Epoch).serveDone err)) := by
  simp only [step] at h
  split_ifs at h with h1 h2
  refine ⟨h2.1, h2.2, ?_⟩
  split at h <;> cases h
  · exact .inl ⟨‹_›, rfl⟩
  · exact .inr (.inl ⟨‹_›, rfl⟩)
  · exact .inr (.inr ⟨_, ‹_›, rfl⟩)

theorem step_receive {e : Nat} (h : step s (.receive e) = some s') :
    ∃ sig, (s.ep e).signal = some true ∧ s.chan e = some sig ∧
      let t := { s with chan := Function.update s.chan e none }.shutdown e
      (sig = .sigusr2 ∧ s' = t.setEp e (fun x => { x with signal := some false }) ∨
        sig ≠ .sigusr2 ∧ s' = { t with exit := some (.code 0) }) := by
  simp only [step] at h
  split_ifs at h with h1
  split at h
  · rename_i sig hSignal hChan
    refine ⟨sig, hSignal, hChan, ?_⟩
    split_ifs at h with h2 <;> cases h
    · exact .inl ⟨h2, rfl⟩
    · exact .inr ⟨h2, rfl⟩
  · cases h

theorem step_tick {e : Nat} (h : step s (.tick e) = some s') :
    (s.ep e).ticker = some .ticking ∧ (s.ep e).nextTick ≤ s.now ∧
      ((s.ep e).cert.expires < s.now + renewBefore ∧
          s' = s.setEp e (fun x => { x with ticker := some .sending }) ∨
        ¬ (s.ep e).cert.expires < s.now + renewBefore ∧
          s' = s.setEp e (fun x => { x with
            nextTick := x.nextTick + tickPeriod * ((s.now - x.nextTick) / tickPeriod + 1) })) := by
  simp only [step] at h
  split_ifs at h with h1 h2 h3 <;> cases h
  · exact ⟨h2.1, h2.2, .inl ⟨h3, rfl⟩⟩
  · exact ⟨h2.1, h2.2, .inr ⟨h3, rfl⟩⟩

theorem step_send {e : Nat} (h : step s (.send e) = some s') :
    (s.ep e).ticker = some .sending ∧ s.chan e = none ∧
      s' = { s.setEp e (fun x => { x with ticker := some .done }) with
        chan := Function.update s.chan e (some .sigusr2) } := by
  simp only [step] at h
  split_ifs at h with h1 h2
  cases h
  exact ⟨h2.1, h2.2, rfl⟩

theorem step_deliver {sig : Signal} (h : step s (.deliver sig) = some s') :
    sig = .sigusr2 ∧ s' = s ∨
      sig ≠ .sigusr2 ∧ (sig = .sighup ∨ s.notified = []) ∧
        s' = { s with exit := some sig.byDefault } ∨
      sig ≠ .sigusr2 ∧ (sig ≠ .sighup ∧ s.notified ≠ []) ∧ s' = { s with chan := s.deliverTo sig } := by
  simp only [step, if_neg (Option.not_isSome_iff_eq_none.2 (exit_none_of_step h))] at h
  split at h
  · cases h
    exact .inl ⟨‹_›, rfl⟩
  split at h <;> cases h
  · exact .inr (.inl ⟨‹_›, ‹_›, rfl⟩)
  · exact .inr (.inr ⟨‹_›, by tauto, rfl⟩)

theorem step_advance {d : Nat} (h : step s (.advance d) = some s') :
    s' = { s with now := s.now + d } := by
  simp only [step] at h
  split_ifs at h
  cases h
  rfl

theorem step_hijack {i : Nat} (h : step s (.hijack i) = some s') :
    ∃ c, s.conns[i]? = some c ∧ c.live = true ∧ c.server = none ∧ (s.ep c.epoch).runDERP = true ∧
      s' = { s with conns := s.conns.set i { c with server := some (s.ep c.epoch).server } } := by
  simp only [step] at h
  split_ifs at h with h1
  split at h
  · rename_i c hc
    split_ifs at h with hGuard
    cases h
    exact ⟨c, hc, hGuard.1, hGuard.2.1, hGuard.2.2, rfl⟩
  · cases h

theorem step_hangup {i : Nat} (h : step s (.hangup i) = some s') :
    ∃ c, s.conns[i]? = some c ∧ c.live = true ∧
      s' = { s with conns := s.conns.set i { c with live := false } } := by
  simp only [step] at h
  split_ifs at h with h1
  split at h
  · rename_i c hc
    split_ifs at h with hLive
    cases h
    exact ⟨c, hc, hLive, rfl⟩
  · cases h

theorem step_stunListen {i : Nat} {ok : Bool} (h : step s (.stunListen i ok) = some s') :
    s.stun[i]? = some false ∧
      (ok = true ∧ s' = { s with stun := s.stun.set i true } ∨
        ok = false ∧ s' = { s with exit := some (.code 1) }) := by
  simp only [step] at h
  split_ifs at h with h1 h2 h3 <;> cases h
  · exact ⟨h2, .inl ⟨h3, rfl⟩⟩
  · exact ⟨h2, .inr ⟨by simpa using h3, rfl⟩⟩

def Act.isMain : Act → Bool
  | .setup _ | .notify | .wait => true
  | _ => false

theorem main_frame {a : Act} (h : step s a = some s') (ha : a.isMain = false) :
    s'.epoch = s.epoch ∧ s'.main = s.main ∧ s'.notified = s.notified ∧ s'.servers = s.servers ∧
      s'.flags = s.flags ∧ s'.files = s.files := by
  cases a with
  | setup | notify | wait => cases ha
  | listen => obtain ⟨-, ⟨-, rfl⟩ | ⟨-, rfl⟩⟩ := step_listen h <;> exact ⟨rfl, rfl, rfl, rfl, rfl, rfl⟩
  | track => obtain ⟨-, ⟨-, rfl⟩ | ⟨-, rfl⟩⟩ := step_track h <;> exact ⟨rfl, rfl, rfl, rfl, rfl, rfl⟩
  | accept =>
    obtain ⟨-, -, ⟨-, rfl⟩ | ⟨-, rfl⟩ | ⟨_, -, rfl⟩⟩ := step_accept h <;>
      exact ⟨rfl, rfl, rfl, rfl, rfl, rfl⟩
  | receive =>
    obtain ⟨_, -, -, ⟨-, rfl⟩ | ⟨-, rfl⟩⟩ := step_receive h <;> exact ⟨rfl, rfl, rfl, rfl, rfl, rfl⟩
  | tick => obtain ⟨-, -, ⟨-, rfl⟩ | ⟨-, rfl⟩⟩ := step_tick h <;> exact ⟨rfl, rfl, rfl, rfl, rfl, rfl⟩
  | send => obtain ⟨-, -, rfl⟩ := step_send h; exact ⟨rfl, rfl, rfl, rfl, rfl, rfl⟩
  | deliver =>
    obtain ⟨-, rfl⟩ | ⟨-, -, rfl⟩ | ⟨-, -, rfl⟩ := step_deliver h <;> exact ⟨rfl, rfl, rfl, rfl, rfl, rfl⟩
  | advance => obtain rfl := step_advance h; exact ⟨rfl, rfl, rfl, rfl, rfl, rfl⟩
  | hijack => obtain ⟨_, -, -, -, -, rfl⟩ := step_hijack h; exact ⟨rfl, rfl, rfl, rfl, rfl, rfl⟩
  | hangup => obtain ⟨_, -, -, rfl⟩ := step_hangup h; exact ⟨rfl, rfl, rfl, rfl, rfl, rfl⟩
  | stunListen =>
    obtain ⟨-, ⟨-, rfl⟩ | ⟨-, rfl⟩⟩ := step_stunListen h <;> exact ⟨rfl, rfl, rfl, rfl, rfl, rfl⟩

def Epoch.build (x : Epoch) : Nat × Config × Cert × Bool := (x.server, x.cfg, x.cert, x.cronjob)

theorem built_frame {a : Act} (h : step s a = some s') (ha : ∀ env, a ≠ .setup env) (e : Nat) :
    (s'.ep e).build = (s.ep e).build := by
  cases a
  case' setup env => exact absurd rfl (ha env)
  case' notify => obtain ⟨-, rfl⟩ := step_notify h
  case' wait => obtain ⟨-, -, ⟨-, rfl⟩ | ⟨-, rfl⟩⟩ := step_wait h
  case' listen => obtain ⟨-, ⟨-, rfl⟩ | ⟨-, rfl⟩⟩ := step_listen h
  case' track => obtain ⟨-, ⟨-, rfl⟩ | ⟨-, rfl⟩⟩ := step_track h
  case' accept => obtain ⟨-, -, ⟨-, rfl⟩ | ⟨-, rfl⟩ | ⟨_, -, rfl⟩⟩ := step_accept h
  case' receive => obtain ⟨_, -, -, ⟨-, rfl⟩ | ⟨-, rfl⟩⟩ := step_receive h
  case' tick => obtain ⟨-, -, ⟨-, rfl⟩ | ⟨-, rfl⟩⟩ := step_tick h
  case' send => obtain ⟨-, -, rfl⟩ := step_send h
  case' deliver => obtain ⟨-, rfl⟩ | ⟨-, -, rfl⟩ | ⟨-, -, rfl⟩ := step_deliver h
  case' advance => obtain rfl := step_advance h
  case' hijack => obtain ⟨_, -, -, -, -, rfl⟩ := step_hijack h
  case' hangup => obtain ⟨_, -, -, rfl⟩ := step_hangup h
  case' stunListen => obtain ⟨-, ⟨-, rfl⟩ | ⟨-, rfl⟩⟩ := step_stunListen h
  all_goals
    simp only [setEp_ep, shutdown, Proc.notify]
    try split_ifs with he <;> (try subst he) <;> rfl

theorem step_mono {a : Act} (h : step s a = some s') :
    s.epoch ≤ s'.epoch ∧ s.notified <+: s'.notified ∧
      ∀ p, s.published = some p → s'.published = some p := by
  cases a
  case' setup => obtain ⟨-, rfl⟩ := step_setup h; unfold Proc.begin; split
  case' notify => obtain ⟨-, rfl⟩ := step_notify h
  case' wait => obtain ⟨-, -, ⟨-, rfl⟩ | ⟨-, rfl⟩⟩ := step_wait h
  case' listen => obtain ⟨-, ⟨-, rfl⟩ | ⟨-, rfl⟩⟩ := step_listen h
  case' track => obtain ⟨-, ⟨-, rfl⟩ | ⟨-, rfl⟩⟩ := step_track h
  case' accept => obtain ⟨-, -, ⟨-, rfl⟩ | ⟨-, rfl⟩ | ⟨_, -, rfl⟩⟩ := step_accept h
  case' receive => obtain ⟨_, -, -, ⟨-, rfl⟩ | ⟨-, rfl⟩⟩ := step_receive h
  case' tick => obtain ⟨-, -, ⟨-, rfl⟩ | ⟨-, rfl⟩⟩ := step_tick h
  case' send => obtain ⟨-, -, rfl⟩ := step_send h
  case' deliver => obtain ⟨-, rfl⟩ | ⟨-, -, rfl⟩ | ⟨-, -, rfl⟩ := step_deliver h
  case' advance => obtain rfl := step_advance h
  case' hijack => obtain ⟨_, -, -, -, -, rfl⟩ := step_hijack h
  case' hangup => obtain ⟨_, -, -, rfl⟩ := step_hangup h
  case' stunListen => obtain ⟨-, ⟨-, rfl⟩ | ⟨-, rfl⟩⟩ := step_stunListen h
  all_goals exact ⟨by simp [shutdown, Proc.notify], by simp [shutdown, Proc.notify],
    fun p hp => by simp [shutdown, Proc.notify, hp]⟩

end Inversion

/-! ## Runs -/

theorem run_append (s : Proc) (as bs : List Act) : run s (as ++ bs) = (run s as).bind (run · bs) := by
  induction as generalizing s with
  | nil => rfl
  | cons a as ih =>
    simp only [List.cons_append, run]
    cases step s a <;> simp [ih]

theorem run_satisfies {o : Option Proc} {P : Proc → Prop} [DecidablePred P]
    (h : o.map (fun s => decide (P s)) = some true) : ∃ s, o = some s ∧ P s := by
  cases o with
  | none => cases h
  | some s => exact ⟨s, rfl, of_decide_eq_true (Option.some.inj h)⟩

namespace Reachable

variable {s s' : Proc}

theorem init (fl : Flags) (files : Files) (now : Nat) : Reachable (start fl files now) :=
  ⟨fl, files, now, [], rfl⟩

theorem of_run {fl : Flags} {files : Files} {now : Nat} {acts : List Act}
    (h : run (start fl files now) acts = some s) : Reachable s :=
  ⟨fl, files, now, acts, h⟩

theorem next {a : Act} (hs : Reachable s) (h : step s a = some s') : Reachable s' := by
  obtain ⟨fl, files, now, acts, hRun⟩ := hs
  exact ⟨fl, files, now, acts ++ [a], by simp [run_append, hRun, run, h]⟩

section Induction

variable {P : Proc → Prop} (hStep : ∀ s a s', Reachable s → P s → step s a = some s' → P s')
include hStep

theorem run_preserves :
    ∀ (acts : List Act) {s s' : Proc}, Reachable s → P s → run s acts = some s' → P s'
  | [], _, _, _, hP, h => by cases h; exact hP
  | a :: as, s, _, hs, hP, h => by
    obtain ⟨s₁, h₁, h₂⟩ := Option.bind_eq_some.1 h
    exact run_preserves as (hs.next h₁) (hStep s a s₁ hs hP h₁) h₂

theorem induction (hInit : ∀ fl files now, P (start fl files now)) (hs : Reachable s) : P s := by
  obtain ⟨fl, files, now, acts, hRun⟩ := hs
  exact run_preserves hStep acts (init fl files now) (hInit fl files now) hRun

end Induction

end Reachable

end MirageNavi.Derper
