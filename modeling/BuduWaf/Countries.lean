import BuduWaf.Lib.Except
import BuduWaf.Lib.Utf8
import BuduWaf.Plain
import BuduWaf.Reputation

/-!
# `budu-reputation`: the country policy of a configuration

The entries of a policy are read once, into two-byte codes, and a policy is chosen by whether codes
are left. So an allowlist none of whose entries is a code is no allowlist.

* **`EntryIs`**: an entry names a country, in any case and with white space around it.
* **`mem_toCodes`**: the codes of a list are the countries its entries name.
* **`permits_iff`**: who passes, by the entries of the configuration.
* **`country_allowlist_honoured_iff`**: when the allowlist binds a request.

Upper case is computed on bytes by the code and on characters by the documentation. The two agree
(`utf8_toAsciiUppercase`), because every byte of a character above ASCII is above ASCII itself.
The codes keep the order and the repetitions of the entries, which no verdict depends on: a policy
is looked at through membership and through whether anything is left of it.
-/

namespace BuduWaf.Reputation

/-! ## Upper case, in texts and in their bytes -/

/-- Bytes above ASCII have no case, so they are their own upper case. -/
theorem upperByte_of_not_ascii {b : UInt8} (h : 0x80 ≤ b.toNat) : upperByte b = b := by
  have hletter : ¬(0x61 ≤ b ∧ b ≤ 0x7A) := by
    rintro ⟨-, hle⟩
    have hle' := UInt8.le_iff_toNat_le.mp hle
    have hz : (0x7A : UInt8).toNat = 0x7A := rfl
    omega
  rw [upperByte, if_neg hletter]

/-- A character above ASCII has no byte in ASCII. -/
theorem le_of_mem_utf8EncodeChar {c : Char} (hc : 0x80 ≤ c.toNat) {b : UInt8}
    (hb : b ∈ String.utf8EncodeChar c) : 0x80 ≤ b.toNat := by
  have hbyte : ∀ n, 0x80 ≤ n → n < 0x100 → b = UInt8.ofNat n → 0x80 ≤ b.toNat := by
    intro n hlow hhigh hbn
    rw [hbn, Str.toNat_ofNat_byte hhigh]
    exact hlow
  have hval : c.val.toNat = c.toNat := rfl
  have hbounds := Str.scalar_bounds c
  unfold String.utf8EncodeChar at hb
  simp only [hval] at hb
  rw [if_neg (by omega)] at hb
  split_ifs at hb with h2 h3 <;> simp only [List.mem_cons, List.not_mem_nil, or_false] at hb
  · rcases hb with hb | hb <;> exact hbyte _ (by omega) (by omega) hb
  · rcases hb with hb | hb | hb <;> exact hbyte _ (by omega) (by omega) hb
  · rcases hb with hb | hb | hb | hb <;> exact hbyte _ (by omega) (by omega) hb

/-- `to_ascii_uppercase` leaves a character outside ASCII. -/
theorem toUpper_of_not_ascii {c : Char} (hc : 0x80 ≤ c.toNat) : c.toUpper = c := by
  unfold Char.toUpper
  rw [dif_neg]
  rintro ⟨-, hle⟩
  have hle' := UInt32.le_iff_toNat_le.mp hle
  have hz : 'z'.val.toNat = 0x7A := rfl
  have hval : c.val.toNat = c.toNat := rfl
  omega

/-- The bytes of a character in upper case are its bytes in upper case. -/
theorem utf8EncodeChar_toUpper (c : Char) :
    String.utf8EncodeChar c.toUpper = (String.utf8EncodeChar c).map upperByte := by
  by_cases hc : c.toNat < 0x80
  · have hascii : ∀ n : Fin 128, String.utf8EncodeChar (Char.ofNat n.val).toUpper =
        (String.utf8EncodeChar (Char.ofNat n.val)).map upperByte := by decide +kernel
    have hat := hascii ⟨c.toNat, hc⟩
    rwa [Char.ofNat_toNat] at hat
  · have habove : 0x80 ≤ c.toNat := by omega
    rw [toUpper_of_not_ascii habove]
    have hbytes : (String.utf8EncodeChar c).map upperByte = (String.utf8EncodeChar c).map id := by
      apply List.map_congr_left
      intro b hb
      exact upperByte_of_not_ascii (le_of_mem_utf8EncodeChar habove hb)
    rw [hbytes, List.map_id]

/-- Upper case character by character is upper case byte by byte. -/
theorem utf8_toAsciiUppercase (s : Str) :
    Str.utf8 (Str.toAsciiUppercase s) = (Str.utf8 s).map upperByte := by
  induction s with
  | nil => rfl
  | cons c s ih =>
    have hcons : Str.toAsciiUppercase (c :: s) = c.toUpper :: Str.toAsciiUppercase s := rfl
    rw [hcons, Str.utf8_cons, Str.utf8_cons, List.map_append, ih, utf8EncodeChar_toUpper]

/-! ## The entries of a policy -/

/-- An entry names a country: trimmed and in upper case, it is the country's code. -/
def EntryIs (entry : Str) (country : CountryCode) : Prop :=
  Str.utf8 (Str.toAsciiUppercase (Str.trim entry)) = [country.bytes.1, country.bytes.2]

/-- An entry that, trimmed, has the length of a code. -/
def TwoBytes (entry : Str) : Prop := (Str.utf8 (Str.trim entry)).length = 2

/-- An entry of two bytes names exactly the country kept of it. -/
theorem entryIs_iff_of_bytes {entry : Str} {a b : UInt8} (h : Str.utf8 (Str.trim entry) = [a, b])
    (country : CountryCode) :
    EntryIs entry country ↔ country.bytes = (upperByte a, upperByte b) := by
  unfold EntryIs
  rw [utf8_toAsciiUppercase, h]
  constructor
  · intro heq
    simp only [List.map_cons, List.map_nil, List.cons.injEq, and_true] at heq
    rw [heq.1, heq.2]
  · intro heq
    rw [heq]
    rfl

/-- An entry of any other length names none. -/
theorem twoBytes_of_entryIs {entry : Str} {country : CountryCode} (h : EntryIs entry country) :
    TwoBytes entry := by
  have hlength := congrArg List.length h
  rw [utf8_toAsciiUppercase, List.length_map] at hlength
  exact hlength

/-- An entry of two bytes has a first and a second one. -/
theorem exists_bytes_of_twoBytes {entry : Str} (h : TwoBytes entry) :
    ∃ a b, Str.utf8 (Str.trim entry) = [a, b] := List.length_eq_two.mp h

/-- An entry whose trimmed text is two bytes adds them in upper case to the codes. -/
theorem toCodes_cons_of_bytes {entry : Str} {a b : UInt8} (h : Str.utf8 (Str.trim entry) = [a, b])
    (list : List Str) :
    toCodes (entry :: list) = (upperByte a, upperByte b) :: toCodes list := by
  unfold toCodes
  apply List.filterMap_cons_some
  rw [h]

/-- An entry of any other length is dropped without a word. -/
theorem toCodes_cons_of_not_twoBytes {entry : Str} (h : ¬TwoBytes entry) (list : List Str) :
    toCodes (entry :: list) = toCodes list := by
  unfold toCodes
  apply List.filterMap_cons_none
  split
  · rename_i a b hbytes
    exact absurd (congrArg List.length hbytes) h
  · rfl

/-- The codes of a list are the countries its entries name. -/
theorem mem_toCodes {list : List Str} {country : CountryCode} :
    country.bytes ∈ toCodes list ↔ ∃ entry ∈ list, EntryIs entry country := by
  induction list with
  | nil => simp [toCodes]
  | cons entry list ih =>
    simp only [List.mem_cons, exists_eq_or_imp]
    by_cases htwo : TwoBytes entry
    · obtain ⟨a, b, hbytes⟩ := exists_bytes_of_twoBytes htwo
      rw [toCodes_cons_of_bytes hbytes, entryIs_iff_of_bytes hbytes, List.mem_cons, ih]
    · have hnot : ¬EntryIs entry country := fun h => htwo (twoBytes_of_entryIs h)
      rw [toCodes_cons_of_not_twoBytes htwo, ih]
      simp only [hnot, false_or]

/-- No code is left of a list just when no entry has the length of one. -/
theorem toCodes_eq_nil_iff {list : List Str} :
    toCodes list = [] ↔ ∀ entry ∈ list, ¬TwoBytes entry := by
  induction list with
  | nil => simp [toCodes]
  | cons entry list ih =>
    rw [List.forall_mem_cons]
    by_cases htwo : TwoBytes entry
    · obtain ⟨a, b, hbytes⟩ := exists_bytes_of_twoBytes htwo
      rw [toCodes_cons_of_bytes hbytes]
      simp [htwo]
    · rw [toCodes_cons_of_not_twoBytes htwo, ih]
      simp [htwo]

/-! ## The policy -/

/-- Who passes: the countries of a policy that allows some, otherwise all but the blocked ones. -/
theorem countryDecision_iff {geo : Option CountryCode} {allow block : List (UInt8 × UInt8)} :
    countryDecision geo allow block = true ↔
      (∃ country, geo = some country ∧ country.bytes ∈ allow) ∨
        allow = [] ∧ ∀ country, geo = some country → country.bytes ∉ block := by
  unfold countryDecision
  cases geo with
  | none => simp
  | some country =>
    cases allow with
    | nil => simp
    | cons code allow => simp

namespace GeoStage

variable {X : Crates} {fs : FileSystem} {cfg : GeoIpConfig} {g : GeoStage X}

/-- A stage that was built has the codes of the configuration. -/
theorem codes_of_fromConfig (h : fromConfig X fs cfg = .ok (some g)) :
    g.allow = toCodes cfg.allowCountries ∧ g.block = toCodes cfg.blockCountries := by
  unfold fromConfig at h
  split_ifs at h
  · cases h
  · obtain ⟨bytes, -, h⟩ := bind_ok_iff.mp h
    obtain ⟨reader, -, h⟩ := bind_ok_iff.mp h
    cases h
    exact ⟨rfl, rfl⟩

/-- The GeoIP stage lets a client through iff the lists permit its address. -/
theorem inspect_cont_iff (ctx : RequestCtx) :
    (g.inspect ctx).1 = .cont ↔ g.permits ctx.client.ip = true := by
  unfold inspect
  split
  · rename_i hpass
    simp [hpass]
  · rename_i hpass
    simp [hpass]

/-- Who passes, by the entries of the configuration. -/
theorem permits_iff (h : fromConfig X fs cfg = .ok (some g)) (ip : IpAddr) :
    g.permits ip = true ↔
      (∃ country, g.lookup ip = some country ∧
        ∃ entry ∈ cfg.allowCountries, EntryIs entry country) ∨
      (∀ entry ∈ cfg.allowCountries, ¬TwoBytes entry) ∧
        ∀ country, g.lookup ip = some country →
          ¬∃ entry ∈ cfg.blockCountries, EntryIs entry country := by
  obtain ⟨hallow, hblock⟩ := codes_of_fromConfig h
  unfold permits
  rw [countryDecision_iff, hallow, hblock, toCodes_eq_nil_iff]
  simp only [mem_toCodes]

/-- The stage lets a request through only from a country that an entry of the allowlist names. -/
def OnlyListed (cfg : GeoIpConfig) (g : GeoStage X) (ctx : RequestCtx) : Prop :=
  (g.inspect ctx).1 = .cont → ∃ country, g.lookup ctx.client.ip = some country ∧
    ∃ entry ∈ cfg.allowCountries, EntryIs entry country

end GeoStage

/-- A configured allowlist binds a request just when one of its entries has the length of a code, or
the request comes from a country that is blocked by name. -/
theorem country_allowlist_honoured_iff {X : Crates} {fs : FileSystem} {cfg : GeoIpConfig}
    {g : GeoStage X}
    (hbuilt : GeoStage.fromConfig X fs cfg = .ok (some g)) (ctx : RequestCtx) :
    GeoStage.OnlyListed cfg g ctx ↔
      (∃ entry ∈ cfg.allowCountries, TwoBytes entry) ∨
        ∃ country, g.lookup ctx.client.ip = some country ∧
          ∃ entry ∈ cfg.blockCountries, EntryIs entry country := by
  have hpass := GeoStage.permits_iff hbuilt ctx.client.ip
  unfold GeoStage.OnlyListed
  rw [GeoStage.inspect_cont_iff, hpass]
  constructor
  · intro honly
    by_contra hnone
    obtain ⟨hnotwo, hnoblock⟩ := not_or.mp hnone
    have hshort : ∀ entry ∈ cfg.allowCountries, ¬TwoBytes entry :=
      fun entry hmem htwo => hnotwo ⟨entry, hmem, htwo⟩
    have hthrough := honly (.inr ⟨hshort, fun country hgeo hblocked =>
      hnoblock ⟨country, hgeo, hblocked⟩⟩)
    obtain ⟨country, -, entry, hmem, hnamed⟩ := hthrough
    exact hshort entry hmem (twoBytes_of_entryIs hnamed)
  · rintro hbinds (hlisted | ⟨hshort, hnoblock⟩)
    · exact hlisted
    · rcases hbinds with ⟨entry, hmem, htwo⟩ | ⟨country, hgeo, hblocked⟩
      · exact absurd htwo (hshort entry hmem)
      · exact absurd hblocked (hnoblock country hgeo)

/-! ## A list that names nothing -/

/-- Crates whose country database is a table, whatever the bytes of its file. -/
def withCountries (X : Crates) (table : List (IpAddr × Str)) : Crates :=
  { X with
    GeoReader := List (IpAddr × Str)
    geoOpen := fun _ => .ok table
    geoIso := fun table ip => table.lookup ip }

/-- A policy that allows one entry and blocks none. -/
def allowing (entry : Str) : GeoIpConfig where
  enabled := true
  dbPath := "geo.mmdb"
  allowCountries := [entry]
  blockCountries := []

/-- A database with one address of Malaysia. -/
def oneCountry : List (IpAddr × Str) := [(.v4 0xC0000201, ("my" : Str))]

/-- A plain build that reads this database. -/
abbrev countryBuild : Crates := withCountries (.plain .none .none) oneCountry

/-- The stage of such a policy on that database. -/
def oneCountryStage (entry : Str) : GeoStage countryBuild :=
  ⟨oneCountry, toCodes [entry], toCodes []⟩

/-- The stage that is built of an allowlist with one entry. -/
theorem fromConfig_oneCountry (entry : Str) :
    GeoStage.fromConfig countryBuild ⟨fun _ => .ok []⟩
      (allowing entry) = .ok (some (oneCountryStage entry)) := rfl

/-- A request from an address, with nothing else to look at. -/
def requestFrom (ip : IpAddr) : RequestCtx :=
  ⟨"GET", "/", none, .empty, ⟨ip, none⟩, .notBuffered, .default⟩

/-- A three-letter entry lets everyone through: here an address of no known country. -/
theorem country_allowlist_ignored :
    GeoStage.fromConfig countryBuild ⟨fun _ => .ok []⟩
        (allowing "MYS") = .ok (some (oneCountryStage "MYS")) ∧
      (oneCountryStage "MYS").lookup (.v4 0x0A000001) = none ∧
      ((oneCountryStage "MYS").inspect (requestFrom (.v4 0x0A000001))).1 = .cont ∧
      ¬GeoStage.OnlyListed (allowing "MYS") (oneCountryStage "MYS")
        (requestFrom (.v4 0x0A000001)) := by
  refine ⟨rfl, rfl, by decide +kernel, fun honly => ?_⟩
  obtain ⟨country, hgeo, -⟩ := honly (by decide +kernel)
  cases hgeo

/-- An entry of two letters binds: the same address is kept out. -/
theorem country_allowlist_honoured_my :
    GeoStage.OnlyListed (allowing " my") (oneCountryStage " my")
        (requestFrom (.v4 0x0A000001)) ↔
      (∃ entry ∈ (allowing " my").allowCountries, TwoBytes entry) ∨
        ∃ country, (oneCountryStage " my").lookup (.v4 0x0A000001) = some country ∧
          ∃ entry ∈ (allowing " my").blockCountries, EntryIs entry country :=
  country_allowlist_honoured_iff (fromConfig_oneCountry " my")
    (requestFrom (.v4 0x0A000001))

end BuduWaf.Reputation
