import MirageNavi.Tls.RateLimited
import MirageNavi.Store.Config

/-! # One epoch of `main`, up to `errorGroup.Go`

The body of `main`'s `for` loop runs sequentially from the loop head until it starts the serve task:
it loads the config, makes a new `derp.Server`, completes the managed-mode login, starts the STUN
server on the first pass, and obtains the certificate. Every outside answer (the file system, the
controller, the certificate authority, the shell commands) is an input, and every way out through
`log.Fatal` or a panic is an `Exit`. The code under `switch *certMode` assigns `err` twice: after
`ManageSync` and again after the `iptables -D` command, so on the port-redirect path a failed
issuance is forgotten once the rule is removed.
-/

namespace MirageNavi.Derper

open MirageNavi.Tls MirageNavi.Store

set_option autoImplicit false

/-- The signals the process is sent. `main` registers SIGINT, SIGTERM and SIGQUIT with
`signal.Notify`; SIGHUP and SIGUSR2 never are. -/
inductive Signal
  | sighup
  | sigint
  | sigterm
  | sigquit
  | sigusr2
  deriving DecidableEq, Repr

/-- How the process ends: `os.Exit(n)`, with 0 from the signal task or from `flag.Parse` on `-h`,
1 from `log.Fatal`, 2 from an unrecovered panic or a bad flag; or the Go runtime's default action
for a signal no channel takes, which kills the process for SIGHUP, SIGINT and SIGTERM, and for
SIGQUIT dumps the stack of every goroutine and exits with status 2. -/
inductive Exit
  | code (n : Nat)
  | killed (sig : Signal)
  | dumped
  deriving DecidableEq, Repr

/-- The runtime's default action for a signal it does not ignore: a goroutine dump for SIGQUIT,
death by the signal for the others. -/
def Signal.byDefault (sig : Signal) : Exit := if sig = .sigquit then .dumped else .killed sig

@[simp]
theorem Signal.byDefault_ne_code (sig : Signal) (n : Nat) : sig.byDefault ≠ .code n := by
  unfold Signal.byDefault; split <;> simp

@[simp]
theorem Signal.code_ne_byDefault (sig : Signal) (n : Nat) : .code n ≠ sig.byDefault :=
  (sig.byDefault_ne_code n).symm

/-- `*certMode`: `letsencrypt`, `manual`, or any other value. -/
inductive CertMode
  | letsencrypt
  | manual
  | other
  deriving DecidableEq, Repr

/-- `*dnsProvider`: empty, one of the four names the switch knows, or any other string. -/
inductive DnsProvider
  | none
  | cloudflare
  | aliyun
  | qcloud
  | namesilo
  | unknown
  deriving DecidableEq, Repr

/-- The flags the loop reads. A string flag the code only compares with `""` is the result of
that comparison; `-a` is what the code derives from it: whether `net.SplitHostPort(*addr)`
succeeds, and `strconv.Atoi(strings.TrimPrefix(*addr, ":"))`, `none` on its error. -/
structure Flags where
  dev : Bool
  addrOk : Bool
  addrPort : Option Int
  configPath : List UInt8
  ctrlURL : List UInt8
  derpID : List UInt8
  certMode : CertMode
  dnsProvider : DnsProvider
  setIPv4 : Bool
  setIPv6 : Bool
  runSTUN : Bool
  runDERP : Bool
  deriving DecidableEq, Repr

/-- The flags `s.UpdateNaviInfo` receives pointers to (package derp, not under src); the model
lets it write any values into them. -/
structure NaviInfo where
  addrOk : Bool
  addrPort : Option Int
  dnsProvider : DnsProvider
  setIPv4 : Bool
  setIPv6 : Bool
  runSTUN : Bool
  runDERP : Bool
  deriving DecidableEq, Repr

def NaviInfo.update (info : NaviInfo) (fl : Flags) : Flags :=
  { fl with addrOk := info.addrOk, addrPort := info.addrPort, dnsProvider := info.dnsProvider,
            setIPv4 := info.setIPv4, setIPv6 := info.setIPv6, runSTUN := info.runSTUN,
            runDERP := info.runDERP }

/-- What the outside answers while the certificate is obtained: whether `findZoneByFQDN` finds
the hostname's zone, whether `sudo iptables ... -A PREROUTING ...` exits 0, whether
`magic.ManageSync` returns nil, whether `sudo iptables ... -D PREROUTING ...` exits 0, the
`Leaf.NotAfter` of each certificate `cache.AllMatchingCertificates(*hostname)` returns, and whether
`certProviderByCertMode` succeeds. -/
structure CertEnv where
  zoneFound : Bool
  iptablesAdd : Bool
  manageSync : Bool
  iptablesDel : Bool
  cached : List Nat
  manualOk : Bool
  deriving DecidableEq, Repr

/-- The certificate an epoch serves with: whether `certmagic.NewCache` ran, starting the cache's
maintenance goroutine; what `ManageSync` returned, when it was called, `true` for nil; and
`certExpires`, the zero time outside `letsencrypt` mode. -/
structure Cert where
  cache : Bool
  issued : Option Bool
  expires : Nat
  deriving DecidableEq, Repr

/-- The `switch *certMode` of `main`. -/
def obtainCert (fl : Flags) (env : CertEnv) : Except Exit Cert :=
  match fl.certMode with
  | .letsencrypt => do
    let alpnPort ← if fl.dnsProvider = .none then
        match fl.addrPort with
        | some p => pure p
        | none => throw (.code 1)
      else do
        if !env.zoneFound then throw (.code 1)
        -- `provider` is a nil interface for a name the switch does not know
        if fl.dnsProvider = .unknown ∧ (fl.setIPv4 ∨ fl.setIPv6) then throw (.code 2)
        pure 0
    let redirect := fl.dnsProvider = .none ∧ alpnPort ≠ 443
    if redirect ∧ !env.iptablesAdd then throw (.code 1)
    let err := !env.manageSync
    let err ← if redirect then (if env.iptablesDel then pure false else throw (.code 1)) else pure err
    if err then throw (.code 1)
    match env.cached with
    | [] => throw (.code 2)
    | c :: _ => pure ⟨true, some env.manageSync, c⟩
  | .manual => if env.manualOk then pure ⟨false, none, 0⟩ else throw (.code 1)
  -- `httpsrv.TLSConfig` is nil and `httpsrv.TLSConfig.GetCertificate` dereferences it
  | .other => throw (.code 2)

theorem obtainCert_redirect {fl : Flags} {env : CertEnv} {p : Int} {c : Nat} {cs : List Nat}
    (hMode : fl.certMode = .letsencrypt) (hDns : fl.dnsProvider = .none)
    (hPort : fl.addrPort = some p) (h443 : p ≠ 443) (hAdd : env.iptablesAdd = true)
    (hDel : env.iptablesDel = true) (hCached : env.cached = c :: cs) :
    obtainCert fl env = .ok ⟨true, some env.manageSync, c⟩ := by
  simp [obtainCert, hMode, hDns, hPort, h443, hAdd, hDel, hCached]
  rfl

theorem obtainCert_error {fl : Flags} {env : CertEnv} {x : Exit} (h : obtainCert fl env = .error x) :
    x = .code 1 ∨ x = .code 2 := by
  unfold obtainCert at h
  simp only [bind, Except.bind, pure, Except.pure, throw, throwThe, MonadExceptOf.throw] at h
  repeat' split at h
  all_goals cases h <;> (try split_ifs at *) <;> simp_all

/-- The outside answers of one pass of the loop body up to `errorGroup.Go(serve)`: the store's,
whether `s.PrepareManaged` returns nil, what `s.TryLogin` gets (the information `UpdateNaviInfo`
then writes, `none` on its error), whether the mesh key file is read and well formed and
`startMesh` returns nil, and the certificate's. -/
structure SetupEnv where
  store : StoreEnv
  prepareOk : Bool
  login : Option NaviInfo
  meshOk : Bool
  cert : CertEnv
  deriving DecidableEq, Repr

/-- A managed node: `*ctrlURL != "" && *derpID != ""`. -/
def Flags.managed (fl : Flags) : Bool := fl.ctrlURL ≠ [] ∧ fl.derpID ≠ []

def Flags.storeFlags (fl : Flags) : StoreFlags := ⟨fl.dev, fl.configPath, fl.ctrlURL, fl.derpID⟩

/-- What one pass of the loop body builds before it starts the serve task. `cronjob` tells
whether `s.Cronjob.Start()` ran, whose `defer s.Cronjob.Stop()` only runs when `main` returns, and
`stun` whether `go serveSTUN(...)` ran. -/
structure Built where
  flags : Flags
  files : Files
  cfg : Config
  cronjob : Bool
  stun : Bool
  cert : Cert

/-- The loop body from its head to `errorGroup.Go(serve)`. -/
def setup (fl : Flags) (files : Files) (env : SetupEnv) : Except Exit Built := do
  let fl := if fl.dev then { fl with addrOk := true, addrPort := some 3340 } else fl
  if !fl.addrOk then throw (.code 1)
  let (cfg, path, files) ← match loadConfig fl.storeFlags files env.store with
    | some r => pure r
    | none => throw (.code 1)
  let fl := { fl with configPath := path }
  let managed := fl.managed
  let fl ← if managed then do
      if !env.prepareOk then throw (.code 1)
      match env.login with
      | some info => pure (info.update fl)
      | none => throw (.code 1)
    else pure fl
  if !env.meshOk then throw (.code 1)
  let stun := fl.runSTUN
  let fl := { fl with runSTUN := false }
  let cert ← obtainCert fl env.cert
  pure ⟨fl, files, cfg, managed, stun, cert⟩

theorem setup_spec {fl : Flags} {files : Files} {env : SetupEnv} {b : Built}
    (h : setup fl files env = .ok b) :
    loadConfig fl.storeFlags files env.store = some (b.cfg, b.flags.configPath, b.files) ∧
      b.flags.dev = fl.dev ∧ b.flags.ctrlURL = fl.ctrlURL ∧ b.flags.derpID = fl.derpID ∧
      b.flags.certMode = fl.certMode ∧ b.cronjob = fl.managed ∧ b.flags.runSTUN = false ∧
      obtainCert b.flags env.cert = .ok b.cert := by
  unfold setup at h
  simp only [bind, Except.bind, pure, Except.pure] at h
  repeat' split at h
  all_goals cases h
  all_goals exact ⟨‹_›, rfl, rfl, rfl, rfl, rfl, rfl, ‹_›⟩

theorem setup_stun {fl : Flags} {files : Files} {env : SetupEnv} {b : Built}
    (h : setup fl files env = .ok b) (hManaged : fl.managed = false) : b.stun = fl.runSTUN := by
  unfold setup at h
  simp only [bind, Except.bind, pure, Except.pure] at h
  repeat' split at h
  all_goals cases h
  -- a managed pass contradicts the hypothesis; the others keep the flag
  all_goals first | rfl | exact absurd (hManaged.symm.trans ‹fl.managed = true›) Bool.false_ne_true

theorem setup_error {fl : Flags} {files : Files} {env : SetupEnv} {x : Exit}
    (h : setup fl files env = .error x) : x = .code 1 ∨ x = .code 2 := by
  unfold setup at h
  simp only [bind, Except.bind, pure, Except.pure, throw, throwThe, MonadExceptOf.throw] at h
  repeat' split at h
  all_goals cases h <;> first | simp | exact obtainCert_error ‹_›

end MirageNavi.Derper
