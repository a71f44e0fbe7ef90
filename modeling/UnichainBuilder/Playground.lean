import UnichainBuilder.Lib.RustStd
import UnichainBuilder.Lib.Search
import UnichainBuilder.Lib.Text

/-! # The port of the trusted peer

`playground.rs` reads from the docker-compose file which port op-geth listens
on inside its container, and looks up the port of the host that is mapped to
it. The mapping is found by its text: one that has the digits after a colon. -/
namespace UnichainBuilder.Playground
open UnichainBuilder.Lib.RustStd UnichainBuilder.Lib.Search UnichainBuilder.Lib.Text

/-- `eyre::Report`, by its text. -/
abbrev Report := String

/-- What is asked of a `serde_yaml::Value`. -/
class YamlValue (V : Type) where
  /-- `value["key"]`. -/
  key : V → String → V
  /-- `value[0]`. -/
  item : V → Nat → V
  asStr : V → Option (List Char)
  asSequence : V → Option (List V)

open YamlValue

/-- The file system, and the parser of YAML documents. -/
structure Env (V : Type) where
  pathExists : String → Bool
  readToString : String → Except Report (List Char)
  fromStr : List Char → Except String V

/-- `Path::join` with a relative path. -/
def join (base relative : String) : String :=
  if base = "" ∨ base.toList.getLast? = some '/' then base ++ relative
  else base ++ "/" ++ relative

variable {V : Type} (env : Env V)

def existingPath (base relative : String) : Except Report String :=
  let path := join base relative
  if env.pathExists path then .ok path
  else .error s!"Expected file {relative} is not present in playground directory {base}"

def readDockerCompose (basepath : String) : Except Report V := do
  let dockerCompose ← env.readToString (← existingPath env basepath "docker-compose.yaml")
  (env.fromStr dockerCompose).mapError fun e => s!"Invalid docker-compose file: {e}"

/-- The internal port, from the arguments of op-geth. -/
def portValue (opgethArgs : List (List Char)) : Except Report UInt16 := do
  let portParamPosition ← okOr (opgethArgs.findIdx? fun arg => arg = "--port".toList)
    "docker_compose: --port param not found on op-geth service"
  let portValue ← okOr opgethArgs[portParamPosition + 1]?
    "docker_compose: --port value not found"
  (parseU16 portValue).mapError fun e => s!"Invalid port value: {e}"

/-- The external port, from the ports mapping of op-geth. -/
def externalPort (portsMapping : List (List Char)) (portValue : UInt16) :
    Except Report UInt16 := do
  let digits := Nat.toDigits 10 portValue.toNat
  let portMapping ← okOr (portsMapping.find? fun mapping => contains mapping (':' :: digits))
    s!"docker_compose: external port mapping not found for {portValue} for op-geth"
  let portMapping ← okOr (portMapping.splitOn ':')[1]?
    "docker_compose: external port mapping for op-geth is not valid"
  (parseU16 portMapping).mapError fun e =>
    s!"Invalid external port mapping value for op-geth: {e}"

def extractTrustedPeerPort [YamlValue V] (basepath : String) : Except Report UInt16 := do
  let dockerCompose ← readDockerCompose env basepath
  let opgeth := key (key dockerCompose "services") "op-geth"
  let opgethArgs ← okOr (asStr (item (key opgeth "command") 1))
    "docker-compose.yaml is missing command line arguments for op-geth"
  let portValue ← portValue (splitWhitespace opgethArgs)
  let opgethPorts ← okOr (asSequence (key opgeth "ports"))
    "docker-compose.yaml is missing ports mapping for op-geth"
  let portsMapping ← opgethPorts.mapM fun s => okOr (asStr s)
    "docker-compose.yaml service ports mapping in op-geth is not a string"
  externalPort portsMapping portValue

/-! ## Port mappings -/

/-- A port in decimal, leading zeros included. -/
structure Port where
  digits : List Char
  nonempty : digits ≠ []
  decimal : ∀ c ∈ digits, c.isDigit
  fits : Nat.ofDigitChars 10 digits 0 ≤ 0xFFFF

def Port.number (port : Port) : UInt16 := UInt16.ofNat (Nat.ofDigitChars 10 port.digits 0)

/-- The three parts of `ip:external:internal`, none with a colon in it. -/
structure PortMapping where
  ip : List Char
  external : Port
  internal : Port
  ip_noColon : ':' ∉ ip

def PortMapping.text (m : PortMapping) : List Char :=
  m.ip ++ ':' :: (m.external.digits ++ ':' :: m.internal.digits)

theorem noColon_of_isDigit {digits : List Char} (h : ∀ c ∈ digits, c.isDigit) : ':' ∉ digits :=
  fun hmem => absurd (h ':' hmem) (by decide)

theorem parseU16_digits (port : Port) : parseU16 port.digits = .ok port.number := by
  rw [parseU16, parseUnsigned_eq_ok port.nonempty port.decimal port.fits]
  rfl

theorem splitOn_text (m : PortMapping) :
    m.text.splitOn ':' = [m.ip, m.external.digits, m.internal.digits] := by
  have hexternal := noColon_of_isDigit m.external.decimal
  have hinternal := noColon_of_isDigit m.internal.decimal
  rw [PortMapping.text, List.splitOn_append_cons_self, List.splitOn_append_cons_self,
    List.splitOn_eq_singleton m.ip_noColon, List.splitOn_eq_singleton hexternal,
    List.splitOn_eq_singleton hinternal]
  rfl

/-- The digits of `p` stand at the front of a port. -/
def PortMapping.Mentions (p : UInt16) (m : PortMapping) : Prop :=
  Nat.toDigits 10 p.toNat <+: m.external.digits ∨ Nat.toDigits 10 p.toNat <+: m.internal.digits

instance (p : UInt16) (m : PortMapping) : Decidable (m.Mentions p) :=
  inferInstanceAs (Decidable (_ ∨ _))

theorem contains_text (p : UInt16) (m : PortMapping) :
    contains m.text (':' :: Nat.toDigits 10 p.toNat) = decide (m.Mentions p) := by
  have hdigits : ':' ∉ Nat.toDigits 10 p.toNat :=
    noColon_of_isDigit fun _ => Nat.isDigit_of_mem_toDigits (by decide) (by decide)
  rw [contains, decide_eq_decide, cons_isInfix_iff_splitOn hdigits, splitOn_text]
  simp [PortMapping.Mentions]

theorem externalPort_text (mappings : List PortMapping) (p : UInt16) :
    (externalPort (mappings.map PortMapping.text) p).toOption =
      (mappings.find? fun m => m.Mentions p).map fun m => m.external.number := by
  have hfind : (mappings.map PortMapping.text).find?
      (fun mapping => contains mapping (':' :: Nat.toDigits 10 p.toNat)) =
        (mappings.find? fun m => m.Mentions p).map PortMapping.text := by
    rw [List.find?_map]
    congr 2
    funext m
    exact contains_text p m
  rw [externalPort, hfind]
  cases mappings.find? fun m => m.Mentions p with
  | none => rfl
  | some m =>
    have hsecond : (m.text.splitOn ':')[1]? = some m.external.digits := by rw [splitOn_text]; rfl
    simp only [Option.map_some, okOr, hsecond, parseU16_digits, bind, Except.bind]
    rfl

/-! ## What the port should be -/

/-- The external port of the first mapping whose internal port is `p`, or an
error where there is none. -/
def PeerPort (mappings : List PortMapping) (p : UInt16) (result : Except Report UInt16) : Prop :=
  match mappings.find? fun m => m.internal.number = p with
  | some m => result = .ok m.external.number
  | none => ∃ e, result = .error e

theorem peerPort_iff {mappings : List PortMapping} {p : UInt16} {result : Except Report UInt16} :
    PeerPort mappings p result ↔
      result.toOption =
        (mappings.find? fun m => m.internal.number = p).map fun m => m.external.number := by
  unfold PeerPort
  cases mappings.find? fun m => m.internal.number = p <;> cases result <;> simp [Except.toOption]

/-- The first mapping that mentions `p` or has it as internal port does both.
Otherwise only a coincidence helps: that the first mapping that mentions `p`
has the external port that is looked for. -/
def Clear (p : UInt16) (mappings : List PortMapping) : Prop :=
  ∀ m ∈ mappings.find? fun m => m.Mentions p || m.internal.number = p,
    (m.Mentions p ∧ m.internal.number = p) ∨
      ∃ mentions ∈ mappings.find? fun m => m.Mentions p,
        ∃ wanted ∈ mappings.find? fun m => m.internal.number = p,
          mentions.external.number = wanted.external.number

/-- The `--port` argument of a command line. -/
def GivesPort (command : List Char) (p : UInt16) : Prop :=
  ∃ before value after, splitWhitespace command = before ++ "--port".toList :: value :: after ∧
    "--port".toList ∉ before ∧ parseU16 value = .ok p

/-- The part of the docker-compose file that is about op-geth. -/
structure OpGeth [YamlValue V] (dockerCompose : V) (command : List Char)
    (mappings : List PortMapping) : Prop where
  command : asStr (item (key (key (key dockerCompose "services") "op-geth") "command") 1) =
    some command
  ports : ∃ items,
    asSequence (key (key (key dockerCompose "services") "op-geth") "ports") = some items ∧
      List.Forall₂ (fun s m => asStr s = some (PortMapping.text m)) items mappings

theorem portValue_of_givesPort {command : List Char} {p : UInt16} (h : GivesPort command p) :
    portValue (splitWhitespace command) = .ok p := by
  obtain ⟨before, value, after, hargs, hfirst, hparse⟩ := h
  have hbefore : before.findIdx? (fun arg => arg = "--port".toList) = none := by
    rw [List.findIdx?_eq_none_iff]
    intro arg harg
    exact decide_eq_false fun heq => hfirst (heq ▸ harg)
  have hposition : (splitWhitespace command).findIdx? (fun arg => arg = "--port".toList) =
      some before.length := by
    rw [hargs, List.findIdx?_append, hbefore]
    simp [List.findIdx?_cons]
  have hvalue : (splitWhitespace command)[before.length + 1]? = some value := by
    rw [hargs]
    simp
  simp only [portValue, bind_eq_ok, okOr_eq_ok, mapError_eq_ok]
  exact ⟨_, hposition, _, hvalue, hparse⟩

/-- The file leaves only the search for the mapping. -/
theorem extractTrustedPeerPort_eq [YamlValue V] {env : Env V} {basepath : String}
    {dockerCompose : V} {command : List Char} {p : UInt16} {mappings : List PortMapping}
    (hfile : readDockerCompose env basepath = .ok dockerCompose)
    (hopgeth : OpGeth dockerCompose command mappings) (hport : GivesPort command p) :
    extractTrustedPeerPort env basepath = externalPort (mappings.map PortMapping.text) p := by
  obtain ⟨items, hitems, htexts⟩ := hopgeth.ports
  have hcommand (err : Report) :
      okOr (asStr (item (key (key (key dockerCompose "services") "op-geth") "command") 1)) err =
        .ok command :=
    okOr_eq_ok.mpr hopgeth.command
  have hports (err : Report) :
      okOr (asSequence (key (key (key dockerCompose "services") "op-geth") "ports")) err =
        .ok items :=
    okOr_eq_ok.mpr hitems
  have hmapping (err : Report) :
      items.mapM (fun s => okOr (asStr s) err) = .ok (mappings.map PortMapping.text) := by
    rw [mapM_eq_ok_iff, List.forall₂_map_right_iff]
    exact htexts.imp fun s m htext => okOr_eq_ok.mpr htext
  simp only [extractTrustedPeerPort, hfile, hcommand, portValue_of_givesPort hport, hports,
    hmapping, bind, Except.bind]

/-! ## A playground directory -/

/-- A YAML document of strings, sequences and mappings. -/
inductive Yaml
  | null
  | string (s : List Char)
  | sequence (items : List Yaml)
  | mapping (entries : List (String × Yaml))

/-- Indexing gives `null` for what is not there. -/
instance : YamlValue Yaml where
  key
    | .mapping entries, name => (entries.lookup name).getD .null
    | _, _ => .null
  item
    | .sequence items, index => items[index]?.getD .null
    | _, _ => .null
  asStr
    | .string s => some s
    | _ => none
  asSequence
    | .sequence items => some items
    | _ => none

section Playground
variable (command : String) (mappings : List PortMapping)

def composeFile : Yaml :=
  .mapping [("services", .mapping [("op-geth", .mapping [
    ("command", .sequence [.string "-c".toList, .string command.toList]),
    ("ports", .sequence (mappings.map fun m => .string m.text))])])]

def composeText : List Char :=
  "services:\n  op-geth:\n    command:\n      - -c\n      - ".toList ++ command.toList ++
    "\n    ports:\n".toList ++ mappings.flatMap fun m => "      - ".toList ++ m.text ++ ['\n']

/-- A directory with this file in it. -/
def playground : Env Yaml where
  pathExists path := path = "playground/docker-compose.yaml"
  readToString path :=
    if path = "playground/docker-compose.yaml" then .ok (composeText command mappings)
    else .error "No such file or directory (os error 2)"
  fromStr s :=
    if s = composeText command mappings then .ok (composeFile command mappings)
    else .error "unexpected character"

theorem readDockerCompose_playground :
    readDockerCompose (playground command mappings) "playground" =
      .ok (composeFile command mappings) := by
  have hpath : existingPath (playground command mappings) "playground" "docker-compose.yaml" =
    .ok "playground/docker-compose.yaml" := rfl
  have hread : (playground command mappings).readToString "playground/docker-compose.yaml" =
    .ok (composeText command mappings) := by simp [playground]
  have hparse : (playground command mappings).fromStr (composeText command mappings) =
    .ok (composeFile command mappings) := by simp [playground]
  simp only [readDockerCompose, bind_eq_ok, mapError_eq_ok]
  exact ⟨_, hpath, _, hread, hparse⟩

theorem opGeth_composeFile :
    OpGeth (composeFile command mappings) command.toList mappings where
  command := rfl
  ports := ⟨_, rfl, List.forall₂_map_left_iff.mpr (List.forall₂_same.mpr fun _ _ => rfl)⟩

end Playground

/-- A port as it is usually written. -/
def Port.ofNumber (p : UInt16) : Port where
  digits := Nat.toDigits 10 p.toNat
  nonempty := Nat.toDigits_ne_nil
  decimal _ := Nat.isDigit_of_mem_toDigits (by decide) (by decide)
  fits := by
    rw [Nat.ofDigitChars_ten_toDigits]
    exact Nat.le_of_lt_succ p.toNat_lt

def localhost (external internal : UInt16) : PortMapping :=
  ⟨"127.0.0.1".toList, .ofNumber external, .ofNumber internal, by decide⟩

theorem givesPort_geth : GivesPort "geth --port 30303".toList 30303 :=
  ⟨["geth".toList], "30303".toList, [], by decide, by decide, by decide⟩

/-! ## When the port is found -/

/-- **When the peer's port is found.** For a file whose op-geth listens on `p`,
the answer is the external port of the first mapping with internal port `p`,
or an error where none has it, if and only if no mapping in front of it
mentions `p` and it does itself, up to the coincidence of `Clear`. -/
theorem peer_port_found_iff [YamlValue V] {env : Env V} {basepath : String}
    {dockerCompose : V} {command : List Char} {p : UInt16} {mappings : List PortMapping}
    (hfile : readDockerCompose env basepath = .ok dockerCompose)
    (hopgeth : OpGeth dockerCompose command mappings) (hport : GivesPort command p) :
    PeerPort mappings p (extractTrustedPeerPort env basepath) ↔ Clear p mappings := by
  rw [peerPort_iff, extractTrustedPeerPort_eq hfile hopgeth hport, externalPort_text,
    find?_agree_iff]
  simp [Clear]

/-- The host shows the port of op-geth under another number. -/
theorem peer_port_found_remapped :
    let mappings := [localhost 8545 8545, localhost 30304 30303]
    let port := extractTrustedPeerPort (playground "geth --port 30303" mappings) "playground"
    (PeerPort mappings 30303 port ↔ Clear 30303 mappings) ∧ Clear 30303 mappings ∧
      PeerPort mappings 30303 port := by
  intro mappings port
  have hfound : PeerPort mappings 30303 port ↔ Clear 30303 mappings :=
    peer_port_found_iff (readDockerCompose_playground _ mappings)
      (opGeth_composeFile _ mappings) givesPort_geth
  have hclear : Clear 30303 mappings := by
    intro m hm
    have hsecond : mappings.find? (fun m => m.Mentions 30303 || m.internal.number = 30303) =
        some (localhost 30304 30303) := rfl
    rw [hsecond] at hm
    cases hm
    exact .inl (by decide)
  exact ⟨hfound, hclear, hfound.mpr hclear⟩

/-- The host shows another service under the number that op-geth has inside:
the port of that service is taken for the peer's. -/
theorem peer_port_taken :
    let mappings := [localhost 30303 8545, localhost 30304 30303]
    let env := playground "geth --port 30303" mappings
    readDockerCompose env "playground" = .ok (composeFile "geth --port 30303" mappings) ∧
      OpGeth (composeFile "geth --port 30303" mappings) "geth --port 30303".toList mappings ∧
      GivesPort "geth --port 30303".toList 30303 ∧
      extractTrustedPeerPort env "playground" = .ok 30303 ∧
      ¬ PeerPort mappings 30303 (extractTrustedPeerPort env "playground") := by
  intro mappings env
  have hfile : readDockerCompose env "playground" = .ok _ :=
    readDockerCompose_playground "geth --port 30303" mappings
  have hopgeth := opGeth_composeFile "geth --port 30303" mappings
  have hresult : extractTrustedPeerPort env "playground" = .ok 30303 := by
    rw [extractTrustedPeerPort_eq hfile hopgeth givesPort_geth]
    decide
  refine ⟨hfile, hopgeth, givesPort_geth, hresult, ?_⟩
  rw [hresult, peerPort_iff]
  decide

end UnichainBuilder.Playground
