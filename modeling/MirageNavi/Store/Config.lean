import MirageNavi.Store.Json

/-! # The config store

`loadConfig` reads `config` from the file at `*configPath`, choosing that path on its first call
when the flag is empty; when there is no file it calls `writeNewConfig`, which makes fresh keys and
writes them with `json.MarshalIndent`. The keys are written in the text form of package key,
`privkey:` followed by 64 lowercase hex digits. Reading the file back gives the written config
with its two strings coerced to UTF-8, and the keys exactly.
-/

namespace MirageNavi.Store

set_option autoImplicit false

/-- A private key of package key (`key.NodePrivate`, `key.MachinePrivate`): 32 bytes. -/
structure PrivateKey where
  bytes : List UInt8
  length_eq : bytes.length = 32
  deriving DecidableEq, Repr

/-- The zero key, what a field left out of a `config{...}` literal holds. -/
def PrivateKey.zero : PrivateKey := ⟨List.replicate 32 0, rfl⟩

def ascii (s : String) : List UInt8 := s.toList.map fun c => c.toNat.toUInt8

def hexPair (b : UInt8) : List UInt8 := [hexDigit (b.toNat / 16), hexDigit (b.toNat % 16)]

/-- `MarshalText` of package key's private keys: `privkey:` and lowercase hex. -/
def PrivateKey.marshalText (k : PrivateKey) : List UInt8 :=
  ascii "privkey:" ++ k.bytes.flatMap hexPair

def parseHex : List UInt8 → Option (List UInt8)
  | [] => some []
  | a :: b :: rest => do
    let a ← hexValue a
    let b ← hexValue b
    let r ← parseHex rest
    pure ((a * 16 + b).toUInt8 :: r)
  | [_] => none

/-- `UnmarshalText` of package key's private keys: the `privkey:` prefix, then exactly 32 bytes of
hex digits of either case. -/
def PrivateKey.unmarshalText (s : List UInt8) : Option PrivateKey :=
  if (ascii "privkey:").isPrefixOf s then
    match parseHex (s.drop 8) with
    | some bs => if h : bs.length = 32 then some ⟨bs, h⟩ else none
    | none => none
  else none

theorem parseHex_hexPairs (bs : List UInt8) : parseHex (bs.flatMap hexPair) = some bs := by
  induction bs with
  | nil => rfl
  | cons b bs ih =>
    have hb : b.toNat < 256 := b.toBitVec.isLt
    show parseHex (hexDigit (b.toNat / 16) :: hexDigit (b.toNat % 16) :: bs.flatMap hexPair) =
      some (b :: bs)
    simp [parseHex, hexValue_hexDigit _ (show b.toNat / 16 < 16 by omega),
      hexValue_hexDigit _ (Nat.mod_lt _ (show 16 > 0 by omega)), ih, Nat.div_add_mod',
      toUInt8_toNat]

theorem unmarshalText_marshalText (k : PrivateKey) :
    PrivateKey.unmarshalText k.marshalText = some k := by
  have hPrefix : (ascii "privkey:").isPrefixOf k.marshalText = true := by
    simp [PrivateKey.marshalText, List.isPrefixOf_iff_prefix]
  have hDrop : k.marshalText.drop 8 = k.bytes.flatMap hexPair := rfl
  rw [PrivateKey.unmarshalText, if_pos hPrefix, hDrop, parseHex_hexPairs]
  simp [k.length_eq]

/-! ## The store file -/

/-- `config` of cmd/derper. -/
structure Config where
  ctrlURL : List UInt8
  derpID : List UInt8
  naviKey : PrivateKey
  privateKey : PrivateKey
  deriving DecidableEq, Repr

def Config.zero : Config := ⟨[], [], .zero, .zero⟩

/-- A config as it reads back from the store: its two strings coerced to UTF-8. -/
def Config.coerce (c : Config) : Config :=
  { c with ctrlURL := coerceUTF8 c.ctrlURL, derpID := coerceUTF8 c.derpID }

/-- One member as `json.MarshalIndent(cfg, "", "\t")` lays it out: a new line, a tab, the quoted
field name, a colon and a space, and the value. -/
def member (name value : List UInt8) : List UInt8 :=
  [0x0A, 0x09] ++ quote name ++ [0x3A, 0x20] ++ value

def marshalIndent (c : Config) : List UInt8 :=
  [0x7B] ++ member (ascii "CtrlURL") (quote c.ctrlURL) ++ [0x2C] ++
    member (ascii "DERPID") (quote c.derpID) ++ [0x2C] ++
    member (ascii "NaviKey") (quote c.naviKey.marshalText) ++ [0x2C] ++
    member (ascii "PrivateKey") (quote c.privateKey.marshalText) ++ [0x0A, 0x7D]

/-- A member's value for a field of the config: a string, or `null`, which leaves the field as it
is. A number, a boolean, an array or an object is an `UnmarshalTypeError`. -/
def readValue (s : List UInt8) : Option (Option (List UInt8) × List UInt8) :=
  match skipSpace s with
  | 0x22 :: rest => (readLiteral rest).map fun (v, r) => (some v, r)
  | 0x6E :: 0x75 :: 0x6C :: 0x6C :: rest => some (none, rest)
  | _ => none

@[simp] theorem readValue_space (s : List UInt8) : readValue (0x20 :: s) = readValue s := rfl

@[simp] theorem readValue_quote (s : List UInt8) :
    readValue (0x22 :: s) = (readLiteral s).map fun (v, r) => (some v, r) := rfl

/-- `b & caseMask`: the byte with the bit that tells an ASCII lower-case letter cleared. -/
def caseMask (b : UInt8) : UInt8 := b &&& 0xDF

/-- `simpleLetterEqualFold`, what `foldFunc` picks for a field name made only of ASCII letters
none of which is `k` or `s`. -/
def simpleLetterEqualFold (s t : List UInt8) : Bool :=
  s.length == t.length && (s.zip t).all fun (a, b) => caseMask a == caseMask b

/-- `equalFoldRight`, what `foldFunc` picks for an ASCII field name with a `k` or an `s`: a
letter matches itself in either case, `k` and `K` also match the Kelvin sign U+212A, and `s` and
`S` the long s U+017F, the two characters outside ASCII that Unicode folds to an ASCII letter. -/
def equalFoldRight : List UInt8 → List UInt8 → Bool
  | [], t => t.isEmpty
  | _ :: _, [] => false
  | sb :: s, tb :: t =>
    if tb < 0x80 then
      (sb == tb || (0x41 ≤ caseMask sb && caseMask sb ≤ 0x5A && caseMask sb == caseMask tb)) &&
        equalFoldRight s t
    else match sb, tb :: t with
      | 0x73, 0xC5 :: 0xBF :: t | 0x53, 0xC5 :: 0xBF :: t => equalFoldRight s t
      | 0x6B, 0xE2 :: 0x84 :: 0xAA :: t | 0x4B, 0xE2 :: 0x84 :: 0xAA :: t => equalFoldRight s t
      | _, _ => false

/-- The fields of `config`. -/
inductive Field
  | ctrlURL
  | derpID
  | naviKey
  | privateKey
  deriving DecidableEq, Repr

/-- The field a member's key names: the exact match of `nameIndex`, or else the first field whose
name its `equalFold` matches with the key; no field when none does. -/
def fieldOf (key : List UInt8) : Option Field :=
  if simpleLetterEqualFold (ascii "CtrlURL") key then some .ctrlURL
  else if simpleLetterEqualFold (ascii "DERPID") key then some .derpID
  else if equalFoldRight (ascii "NaviKey") key then some .naviKey
  else if equalFoldRight (ascii "PrivateKey") key then some .privateKey
  else none

/-- A member's string stored into its field, the keys through `UnmarshalText`. -/
def Config.set (c : Config) : Field → List UInt8 → Option Config
  | .ctrlURL, v => some { c with ctrlURL := v }
  | .derpID, v => some { c with derpID := v }
  | .naviKey, v => (PrivateKey.unmarshalText v).map fun k => { c with naviKey := k }
  | .privateKey, v => (PrivateKey.unmarshalText v).map fun k => { c with privateKey := k }

/-- One member of the top-level object: the quoted key, the colon and the value, stored into the
field the key names, or skipped, of whatever kind, when the key names none. -/
def readMember (c : Config) (s : List UInt8) : Option (Config × List UInt8) :=
  match skipSpace s with
  | 0x22 :: rest => do
    let (key, r) ← readLiteral rest
    match skipSpace r with
    | 0x3A :: r =>
      match fieldOf key with
      | none => (skipValue (2 * r.length + 1) 1 r).map fun r => (c, r)
      | some f => do
        let (v, r) ← readValue r
        let c ← v.elim (some c) (c.set f)
        pure (c, r)
    | _ => none
  | _ => none

/-- The members of an object up to its closing brace. -/
def readMembers : Nat → Config → List UInt8 → Option (Config × List UInt8)
  | 0, _, _ => none
  | n + 1, c, s => do
    let (c, r) ← readMember c s
    match skipSpace r with
    | 0x2C :: r => readMembers n c r
    | 0x7D :: r => pure (c, r)
    | _ => none

/-- `json.Unmarshal(b, &cfg)` into a zero `config`; `none` where it returns an error. -/
def unmarshal (b : List UInt8) : Option Config :=
  match skipSpace b with
  | 0x7B :: rest =>
    match skipSpace rest with
    | 0x7D :: r => if skipSpace r = [] then some Config.zero else none
    | _ => do
      let (c, r) ← readMembers rest.length Config.zero rest
      if skipSpace r = [] then some c else none
  | _ => none

theorem runes_cons_ascii (b : UInt8) (s : List UInt8) (hb : b < 0x80) :
    runes (b :: s) = .ascii b :: runes s := by
  simp [runes, runesAux, hb]

theorem coerceUTF8_ascii (s : List UInt8) (hs : ∀ b ∈ s, b < 0x80) : coerceUTF8 s = s := by
  induction s with
  | nil => rfl
  | cons b s ih =>
    simp only [List.mem_cons, forall_eq_or_imp] at hs
    rw [coerceUTF8, runes_cons_ascii b s hs.1, List.flatMap_cons]
    exact congrArg (b :: ·) (ih hs.2)

theorem marshalText_ascii (k : PrivateKey) : ∀ b ∈ k.marshalText, b < 0x80 := by
  have hDigit : ∀ n < 16, hexDigit n < 0x80 := by decide
  have hb : ∀ b : UInt8, b.toNat < 256 := fun b => b.toBitVec.isLt
  simp only [PrivateKey.marshalText, List.mem_append, List.mem_flatMap, hexPair, List.mem_cons,
    List.mem_singleton, List.not_mem_nil, or_false]
  rintro b (hPre | ⟨x, -, rfl | rfl⟩)
  · have hAscii : ascii "privkey:" = [0x70, 0x72, 0x69, 0x76, 0x6B, 0x65, 0x79, 0x3A] := by decide
    rw [hAscii] at hPre
    revert b
    decide
  · exact hDigit _ (by have := hb x; omega)
  · exact hDigit _ (Nat.mod_lt _ (by omega))

theorem readMember_member (c : Config) (name v rest : List UInt8) {f : Field}
    (hName : ∀ b ∈ name, b < 0x80) (hField : fieldOf name = some f) :
    readMember c (member name (quote v) ++ rest) =
      (c.set f (coerceUTF8 v)).map fun c => (c, rest) := by
  have hKey := readLiteral_quote name ([0x3A, 0x20] ++ quote v ++ rest)
  have hVal := readLiteral_quote v rest
  rw [coerceUTF8_ascii name hName] at hKey
  simp only [quote, List.tail_cons, List.append_assoc, List.cons_append, List.singleton_append,
    List.nil_append] at hKey hVal
  simp only [member, quote, List.append_assoc, List.cons_append, List.singleton_append,
    List.nil_append, readMember, skipSpace_newline, skipSpace_tab, skipSpace_quote]
  rw [hKey]
  simp only [Option.bind_eq_bind, Option.some_bind, skipSpace_colon, hField, readValue_space,
    readValue_quote, hVal, Option.map_some', Option.elim_some]
  cases c.set f (coerceUTF8 v) <;> rfl

theorem readMembers_comma (n : Nat) (c : Config) (name v rest : List UInt8) {f : Field}
    (hName : ∀ b ∈ name, b < 0x80) (hField : fieldOf name = some f) :
    readMembers (n + 1) c (member name (quote v) ++ 0x2C :: rest) =
      (c.set f (coerceUTF8 v)).bind fun c => readMembers n c rest := by
  simp only [readMembers, readMember_member c name v _ hName hField]
  cases c.set f (coerceUTF8 v) <;> rfl

theorem readMembers_close (n : Nat) (c : Config) (name v rest : List UInt8) {f : Field}
    (hName : ∀ b ∈ name, b < 0x80) (hField : fieldOf name = some f) :
    readMembers (n + 1) c (member name (quote v) ++ 0x0A :: 0x7D :: rest) =
      (c.set f (coerceUTF8 v)).map fun c => (c, rest) := by
  simp only [readMembers, readMember_member c name v _ hName hField]
  cases c.set f (coerceUTF8 v) <;> rfl

theorem set_naviKey (c : Config) (k : PrivateKey) :
    c.set .naviKey k.marshalText = some { c with naviKey := k } := by
  simp only [Config.set, unmarshalText_marshalText]
  rfl

theorem set_privateKey (c : Config) (k : PrivateKey) :
    c.set .privateKey k.marshalText = some { c with privateKey := k } := by
  simp only [Config.set, unmarshalText_marshalText]
  rfl

theorem unmarshal_marshalIndent (c : Config) : unmarshal (marshalIndent c) = some c.coerce := by
  have hNames : ∀ name ∈ [ascii "CtrlURL", ascii "DERPID", ascii "NaviKey", ascii "PrivateKey"],
      ∀ b ∈ name, b < 0x80 := by decide
  simp only [List.mem_cons, List.mem_singleton, forall_eq_or_imp, List.not_mem_nil] at hNames
  obtain ⟨h1, h2, h3, h4, -⟩ := hNames
  set rest := member (ascii "CtrlURL") (quote c.ctrlURL) ++ 0x2C ::
    (member (ascii "DERPID") (quote c.derpID) ++ 0x2C ::
    (member (ascii "NaviKey") (quote c.naviKey.marshalText) ++ 0x2C ::
    (member (ascii "PrivateKey") (quote c.privateKey.marshalText) ++ [0x0A, 0x7D]))) with hRest
  have hMarshal : marshalIndent c = 0x7B :: rest := by simp [marshalIndent, hRest]
  obtain ⟨n, hn⟩ : ∃ n, rest.length = n + 4 := ⟨rest.length - 4, by simp [hRest]; omega⟩
  have hObject : unmarshal (marshalIndent c) = (readMembers rest.length Config.zero rest).bind
      fun (c, r) => if skipSpace r = [] then some c else none := by
    rw [hMarshal]
    rfl
  rw [hObject, hn]
  simp only [hRest, readMembers_comma _ _ _ _ _ h1 (by decide : fieldOf _ = some .ctrlURL),
    readMembers_comma _ _ _ _ _ h2 (by decide : fieldOf _ = some .derpID),
    readMembers_comma _ _ _ _ _ h3 (by decide : fieldOf _ = some .naviKey),
    readMembers_close _ _ _ _ _ h4 (by decide : fieldOf _ = some .privateKey),
    coerceUTF8_ascii _ (marshalText_ascii _), set_naviKey, set_privateKey]
  rfl

/-! ## `loadConfig` -/

/-- The files the store lives in, by path. -/
abbrev Files := List UInt8 → Option (List UInt8)

/-- One element of a path as `filepath.Clean` meets it, onto the elements kept so far, the last
first: an empty element or `.` is dropped; `..` removes the last real element, is dropped at the
root, and is kept in a path that is not rooted and has no real element left to remove. -/
def cleanStep (rooted : Bool) (kept : List (List UInt8)) (e : List UInt8) : List (List UInt8) :=
  if e = [] ∨ e = ascii "." then kept
  else if e = ascii ".." then
    match kept with
    | last :: rest => if last ≠ ascii ".." then rest else if rooted then kept else e :: kept
    | [] => if rooted then [] else [e]
  else e :: kept

/-- `filepath.Clean` with `/` as the separator: the shortest path naming the same file by lexical
processing alone, `.` for an empty result. -/
def clean (path : List UInt8) : List UInt8 :=
  let rooted := path.head? = some 0x2F
  let body := [0x2F].intercalate ((path.splitOn 0x2F).foldl (cleanStep rooted) []).reverse
  let out := if rooted then 0x2F :: body else body
  if out = [] then ascii "." else out

/-- `filepath.Join`: the elements from the first non-empty one on, joined by `/` and cleaned; the
empty path when every element is empty. -/
def join (elem : List (List UInt8)) : List UInt8 :=
  match elem.dropWhile List.isEmpty with
  | [] => []
  | es => clean ([0x2F].intercalate es)

/-- The store's path when `-c` is empty: `filepath.Join(dir, ".mirage", "navi.store")`, or with
`"navi-"+*derpID+".store"` as the last element when `-derp-id` is set. -/
def defaultConfigPath (home derpID : List UInt8) : List UInt8 :=
  if derpID = [] then join [home, ascii ".mirage", ascii "navi.store"]
  else join [home, ascii ".mirage", ascii "navi-" ++ derpID ++ ascii ".store"]

/-- The flags `loadConfig` reads; `-c` is also written, on the first call. -/
structure StoreFlags where
  dev : Bool
  configPath : List UInt8
  ctrlURL : List UInt8
  derpID : List UInt8
  deriving DecidableEq, Repr

/-- What the operating system and the key generator answer during one `loadConfig`:
`homedir.HomeDir()`, `key.NewNode()`, `key.NewMachine()`, whether `os.ReadFile` fails with an
error other than `ErrNotExist`, and whether `os.MkdirAll` and `atomicfile.WriteFile` succeed. -/
structure StoreEnv where
  home : List UInt8
  node : PrivateKey
  machine : PrivateKey
  readFails : Bool
  writeOk : Bool
  deriving DecidableEq, Repr

/-- `writeNewConfig`: fresh keys, written to `*configPath`; `none` where it calls `log.Fatal`. -/
def writeNewConfig (path ctrlURL derpID : List UInt8) (files : Files) (env : StoreEnv) :
    Option (Config × Files) :=
  let cfg : Config := ⟨ctrlURL, derpID, env.machine, env.node⟩
  if env.writeOk then some (cfg, Function.update files path (some (marshalIndent cfg))) else none

/-- `loadConfig`: the config, the value `*configPath` holds afterwards and the files; `none` where
it calls `log.Fatal`. -/
def loadConfig (fl : StoreFlags) (files : Files) (env : StoreEnv) :
    Option (Config × List UInt8 × Files) :=
  if fl.dev then some ({ Config.zero with privateKey := env.node }, fl.configPath, files)
  else
    let path := if fl.configPath = [] then defaultConfigPath env.home fl.derpID else fl.configPath
    if env.readFails then none
    else match files path with
      | none => (writeNewConfig path fl.ctrlURL fl.derpID files env).map fun (c, f) => (c, path, f)
      | some b => (unmarshal b).map fun c => (c, path, files)

theorem clean_ne_nil (path : List UInt8) : clean path ≠ [] := by
  unfold clean
  dsimp only
  split_ifs <;> simp_all [ascii]

theorem join_ne_nil (dir e : List UInt8) (rest : List (List UInt8)) (he : e ≠ []) :
    join (dir :: e :: rest) ≠ [] := by
  obtain ⟨b, bs, rfl⟩ := List.exists_cons_of_ne_nil he
  unfold join
  split
  · rename_i h
    cases dir <;> simp_all [List.dropWhile]
  · exact clean_ne_nil _

theorem defaultConfigPath_ne_nil (home derpID : List UInt8) : defaultConfigPath home derpID ≠ [] := by
  unfold defaultConfigPath
  split <;> exact join_ne_nil _ _ _ (by simp [ascii])

theorem loadConfig_store {fl : StoreFlags} {files : Files} {env : StoreEnv}
    {c : Config} {p : List UInt8} {f : Files} (h : loadConfig fl files env = some (c, p, f))
    (hDev : fl.dev = false) :
    p ≠ [] ∧ (fl.configPath ≠ [] → p = fl.configPath) ∧
      ∃ b, f p = some b ∧ (unmarshal b = some c ∨ (files p = none ∧ unmarshal b = some c.coerce)) := by
  simp only [loadConfig, hDev, Bool.false_eq_true, if_false] at h
  set path := if fl.configPath = [] then defaultConfigPath env.home fl.derpID else fl.configPath
    with hPath
  have hNe : path ≠ [] := by
    rw [hPath]
    split
    · exact defaultConfigPath_ne_nil _ _
    · assumption
  have hFlag : fl.configPath ≠ [] → path = fl.configPath := fun hFlag => by rw [hPath, if_neg hFlag]
  split_ifs at h
  cases hFile : files path with
  | none =>
    simp only [hFile, writeNewConfig] at h
    split_ifs at h
    · simp only [Option.map_some', Option.some.injEq, Prod.mk.injEq] at h
      obtain ⟨rfl, rfl, rfl⟩ := h
      exact ⟨hNe, hFlag, _, by simp, .inr ⟨hFile, unmarshal_marshalIndent _⟩⟩
    · cases h
  | some b =>
    simp only [hFile, Option.map_eq_some', Prod.mk.injEq] at h
    obtain ⟨c', hDecode, rfl, rfl, rfl⟩ := h
    exact ⟨hNe, hFlag, b, hFile, .inl hDecode⟩

theorem loadConfig_existing {fl : StoreFlags} {files : Files} {env : StoreEnv} {b : List UInt8}
    (hDev : fl.dev = false) (hPath : fl.configPath ≠ []) (hFile : files fl.configPath = some b) :
    loadConfig fl files env =
      if env.readFails then none else (unmarshal b).map fun c => (c, fl.configPath, files) := by
  simp [loadConfig, hDev, hPath, hFile]

end MirageNavi.Store
