import ChainClient.Config
import ChainClient.Proofs.Toml.Document
import ChainClient.Proofs.TwosComplement

/-!
# `ChainClient.Proofs.Config` — a saved configuration is read back

## Contents
- **Entries.** `Config.entries` are the entries of a saved configuration, and `ofEntries_entries`
  reads them.
- **Lines.** `countLine_of_le` and `countLine_of_lt`: a count is written if it fits a signed integer
  of 64 bits.
- **Documents.** `isDocument_lines`: the lines of the six settings write these entries.
- **Round trip.** `ofToml_toToml`.
-/

namespace ChainClient.Config

/-! ## Entries -/

/-- The entries of the document with all settings. -/
def entries (config : Config) : Toml.Entries :=
  [("rpc_url", .string config.url), ("timeout_secs", .integer config.timeout.toNat),
    ("base_chain_id", .integer config.chainBase.toNat),
    ("default_chain_id", .string config.defaultChain),
    ("gas_limit", .integer config.gasLimit.toNat), ("gas_price", .string config.gasPrice)]

theorem nodup_keys (config : Config) : (config.entries.map (·.1)).Nodup := by
  show ["rpc_url", "timeout_secs", "base_chain_id", "default_chain_id", "gas_limit",
    "gas_price"].Nodup
  decide

theorem readString_of_find? {entries : Toml.Entries} {key s : String}
    (h : Toml.find? key entries = some (.string s)) (fallback : String) :
    readString entries key fallback = some s := by
  rw [readString, h]

theorem readCount_of_find? {entries : Toml.Entries} {key : String} {n : UInt64}
    (h : Toml.find? key entries = some (.integer n.toNat)) (fallback : UInt64) :
    readCount entries key fallback = some n := by
  rw [readCount, h]
  show (if 0 ≤ (n.toNat : Int) then some (UInt64.ofNat (n.toNat : Int).toNat) else none) = some n
  rw [if_pos (Int.natCast_nonneg n.toNat), Int.toNat_natCast, UInt64.ofNat_toNat]

/-- Every setting is found under its own key. -/
theorem ofEntries_entries (config : Config) : ofEntries config.entries = some config := by
  have hurl : Toml.find? "rpc_url" config.entries = some (.string config.url) := rfl
  have htimeout : Toml.find? "timeout_secs" config.entries =
      some (.integer config.timeout.toNat) := rfl
  have hbase : Toml.find? "base_chain_id" config.entries =
      some (.integer config.chainBase.toNat) := rfl
  have hchain : Toml.find? "default_chain_id" config.entries =
      some (.string config.defaultChain) := rfl
  have hlimit : Toml.find? "gas_limit" config.entries =
      some (.integer config.gasLimit.toNat) := rfl
  have hprice : Toml.find? "gas_price" config.entries = some (.string config.gasPrice) := rfl
  simp only [ofEntries, readString_of_find? hurl, readCount_of_find? htimeout,
    readCount_of_find? hbase, readString_of_find? hchain, readCount_of_find? hlimit,
    readString_of_find? hprice]
  rfl

/-! ## Lines -/

/-- Each count is an integer of a document, where 64 bits hold the sign as well. -/
def CountsFit (config : Config) : Prop :=
  config.timeout.toNat ≤ 2 ^ 63 - 1 ∧ config.chainBase.toNat ≤ 2 ^ 63 - 1 ∧
    config.gasLimit.toNat ≤ 2 ^ 63 - 1

instance (config : Config) : Decidable config.CountsFit :=
  inferInstanceAs (Decidable (_ ∧ _ ∧ _))

theorem countLine_of_le (key : String) {n : UInt64} (h : n.toNat ≤ 2 ^ 63 - 1) :
    countLine key n = .ok (Toml.pairText key n.toNat.repr.toList) := by
  rw [countLine, bitBound_eq, if_pos (by omega)]

theorem countLine_of_lt (key : String) {n : UInt64} (h : 2 ^ 63 - 1 < n.toNat) :
    countLine key n = .error .config := by
  rw [countLine, bitBound_eq, if_neg (by omega)]

/-- The lines of the settings, one after the other. -/
def lines (config : Config) : List Char :=
  stringLine "rpc_url" config.url ++
    (Toml.pairText "timeout_secs" config.timeout.toNat.repr.toList ++
    (Toml.pairText "base_chain_id" config.chainBase.toNat.repr.toList ++
    (stringLine "default_chain_id" config.defaultChain ++
    (Toml.pairText "gas_limit" config.gasLimit.toNat.repr.toList ++
    (stringLine "gas_price" config.gasPrice ++ [])))))

theorem toToml_of_countsFit {config : Config} (h : config.CountsFit) :
    config.toToml = .ok (String.ofList config.lines) := by
  obtain ⟨htimeout, hbase, hlimit⟩ := h
  rw [toToml, countLine_of_le _ htimeout, countLine_of_le _ hbase, countLine_of_le _ hlimit]
  simp only [lines, List.append_nil, List.append_assoc]
  rfl

/-- The first count that does not fit ends the writing. -/
theorem toToml_of_not_countsFit {config : Config} (h : ¬ config.CountsFit) :
    config.toToml = .error .config := by
  rw [toToml]
  rcases Nat.lt_or_ge (2 ^ 63 - 1) config.timeout.toNat with htimeout | htimeout
  · rw [countLine_of_lt _ htimeout]
    rfl
  rcases Nat.lt_or_ge (2 ^ 63 - 1) config.chainBase.toNat with hbase | hbase
  · rw [countLine_of_le _ htimeout, countLine_of_lt _ hbase]
    rfl
  have hlimit : 2 ^ 63 - 1 < config.gasLimit.toNat :=
    Nat.lt_of_not_le fun hlimit => h ⟨htimeout, hbase, hlimit⟩
  rw [countLine_of_le _ htimeout, countLine_of_le _ hbase, countLine_of_lt _ hlimit]
  rfl

/-! ## Documents -/

/-- **The lines** of the six settings write their entries. -/
theorem isDocument_lines {config : Config} (h : config.CountsFit) :
    Toml.IsDocument config.lines config.entries := by
  have hcount {n : UInt64} (hn : n.toNat ≤ 2 ^ 63 - 1) :
      Toml.IsValueText n.toNat.repr.toList (.integer n.toNat) :=
    Toml.isValueText_repr (by rw [bitBound_eq]; omega)
  obtain ⟨htimeout, hbase, hlimit⟩ := h
  refine .cons (by decide) (Toml.isValueText_quote config.url) ?_
  refine .cons (by decide) (hcount htimeout) ?_
  refine .cons (by decide) (hcount hbase) ?_
  refine .cons (by decide) (Toml.isValueText_quote config.defaultChain) ?_
  refine .cons (by decide) (hcount hlimit) ?_
  exact .cons (by decide) (Toml.isValueText_quote config.gasPrice) .nil

theorem ofToml_lines {config : Config} (h : config.CountsFit) :
    ofToml (String.ofList config.lines) = .ok config := by
  have hread : (Toml.parse (String.ofList config.lines)).bind ofEntries = some config := by
    rw [Toml.parse_of_isDocument (isDocument_lines h) config.nodup_keys, Option.bind_some,
      ofEntries_entries]
  -- the equation of `ofToml` would be proved by running the reader, so the definition is opened
  unfold ofToml
  rw [hread]

/-! ## Round trip -/

/-- **A saved configuration is read back**, whatever its strings are. One with a count that does not
    fit is not saved. -/
theorem ofToml_toToml (config : Config) :
    (config.CountsFit →
      ∃ document, config.toToml = .ok document ∧ ofToml document = .ok config) ∧
    (¬ config.CountsFit → config.toToml = .error .config) :=
  ⟨fun h => ⟨_, toToml_of_countsFit h, ofToml_lines h⟩, toToml_of_not_countsFit⟩

/-- Marks of both kinds and a line break, so that no form of string does without an escape. -/
def marks : String :=
  String.ofList (List.replicate 3 Toml.doubleQuote ++ '\n' :: List.replicate 3 Toml.singleQuote)

/-- The greatest count is saved, the next one is not. -/
theorem ofToml_toToml_of_marks :
    (∃ document,
      ({ url := marks, timeout := 9223372036854775807, gasPrice := "\\" } : Config).toToml =
        .ok document ∧
      ofToml document =
        .ok { url := marks, timeout := 9223372036854775807, gasPrice := "\\" }) ∧
    ({ gasLimit := 9223372036854775808 } : Config).toToml = .error .config :=
  ⟨(ofToml_toToml { url := marks, timeout := 9223372036854775807, gasPrice := "\\" }).1 (by decide),
    (ofToml_toToml { gasLimit := 9223372036854775808 }).2 (by decide)⟩

end ChainClient.Config
