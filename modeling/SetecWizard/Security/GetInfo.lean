import SetecWizard.Core.Fido2Manager
import SetecWizard.Library.Cbor

/-! What the readers of the decoder for authenticatorGetInfo make of encoded values: numbers, texts
and lengths of the heads they know, and values that are passed over. These are passed over to their
end as long as they have no tags and no heads or floats of eight bytes.
-/
namespace SetecWizard.Core.Fido2Manager
open SetecWizard.Library FormatEngine

section Heads

variable {data : List UInt8} {p n : Nat}

theorem additional_byte (small : n < 2 ^ 8) : Cbor.additional n ≤ 24 := by
  rw [Cbor.additional]
  split
  · omega
  · exact Nat.le_refl _

theorem additional_short (small : n < 2 ^ 16) : Cbor.additional n ≤ 25 := by
  by_cases byte : n < 2 ^ 8
  · exact Nat.le_succ_of_le (additional_byte byte)
  · rw [Cbor.additional,if_neg (by omega),if_neg byte,if_pos small]

theorem additional_word (small : n < 2 ^ 32) : Cbor.additional n ≤ 26 := by
  by_cases short : n < 2 ^ 16
  · exact Nat.le_succ_of_le (additional_short short)
  · rw [Cbor.additional,if_neg (by omega),if_neg (by omega),if_neg short,if_pos small]

theorem additional_long (large : 2 ^ 32 ≤ n) : Cbor.additional n = 27 := by
  rw [Cbor.additional,if_neg (by omega),if_neg (by omega),if_neg (by omega),if_neg (by omega)]

theorem argument_fits (behind : 24 ≤ n) (known : Cbor.additional n ≤ 26) :
    24 ≤ Cbor.additional n ∧ n < 256 ^ 2 ^ (Cbor.additional n - 24) := by
  have small : n < 2 ^ 32 := by
    by_contra large
    rw [additional_long (Nat.le_of_not_lt large)] at known
    omega
  rw [Cbor.additional,if_neg (by omega)]
  split
  next byte => exact ⟨Nat.le_refl _,byte⟩
  next =>
    split
    next short => exact ⟨by decide,short⟩
    next => exact ⟨by decide,small⟩

theorem additional_pos (some_number : 0 < n) : 0 < Cbor.additional n := by
  by_cases small : n < 24
  · rw [Cbor.additional,if_pos small]
    exact some_number
  · by_contra zero
    have behind := (argument_fits (Nat.le_of_not_lt small) (by omega)).1
    omega

theorem readArgument_head {widest : Nat} (here : Stands data p (Cbor.argument n)) (start : p ≤ data.length)
    (fits : Cbor.additional n ≤ widest) (known : widest ≤ 26) :
    readArgument data widest (Cbor.additional n) p = some (n,p + (Cbor.argument n).length) := by
  by_cases small : n < 24
  · have same : Cbor.additional n = n := by rw [Cbor.additional,if_pos small]
    have none_behind : Cbor.argument n = [] := by rw [Cbor.argument,if_pos small]
    rw [same,none_behind,readArgument,if_pos small]
    rfl
  · obtain ⟨behind,holds⟩ := argument_fits (Nat.le_of_not_lt small) (Nat.le_trans fits known)
    have bytes : Cbor.argument n = (toLE (2 ^ (Cbor.additional n - 24)) n).reverse := by
      rw [Cbor.argument,if_neg small]
    have inside := here.inside start
    have read := here.slice
    rw [bytes,List.length_reverse,length_toLE] at inside read
    rw [readArgument,if_neg (by omega),if_pos ⟨fits,inside⟩,read,List.reverse_reverse,ofLE_toLE,
      Nat.mod_eq_of_lt holds,bytes,List.length_reverse,length_toLE]

theorem head_at {major : Nat} (kind : major < 8) (here : Stands data p (Cbor.head major n)) :
    p < data.length ∧ majorAt data p = major ∧ addInfoAt data p = Cbor.additional n ∧
      Stands data (p + 1) (Cbor.argument n) := by
  obtain ⟨inside,first,behind⟩ := stands_cons here
  obtain ⟨top,low⟩ := Cbor.first_byte kind n
  rw [majorAt,addInfoAt,first]
  exact ⟨inside,top,low,behind⟩

theorem length_head (major : Nat) : (Cbor.head major n).length = 1 + (Cbor.argument n).length := by
  rw [Cbor.head,List.length_cons,Nat.add_comm]

theorem readUint_head (here : Stands data p (Cbor.head 0 n)) (small : n < 2 ^ 32) :
    readUint data p = (n,p + (Cbor.head 0 n).length) := by
  obtain ⟨inside,_,low,behind⟩ := head_at (by decide) here
  rw [readUint,if_neg (Nat.not_le.mpr inside),low,
    readArgument_head behind inside (additional_word small) (Nat.le_refl _),length_head,← Nat.add_assoc]
  rfl

theorem readUint_long (here : Stands data p (Cbor.head 0 n)) (large : 2 ^ 32 ≤ n) : (readUint data p).1 = 0 := by
  obtain ⟨inside,_,low,_⟩ := head_at (by decide) here
  rw [readUint,if_neg (Nat.not_le.mpr inside),low,additional_long large,readArgument,if_neg (by decide),
    if_neg (fun known => absurd known.1 (by decide))]
  rfl

theorem readLength_head {major : Nat} (kind : major < 8) (here : Stands data p (Cbor.head major n))
    (small : n < 2 ^ 8) : readLength data p = (n,p + (Cbor.head major n).length) := by
  obtain ⟨inside,_,low,behind⟩ := head_at kind here
  rw [readLength,low,readArgument_head behind inside (additional_byte small) (by decide),length_head,← Nat.add_assoc]
  rfl

theorem readString_text {string : List UInt8} (here : Stands data p (Cbor.text string).encode)
    (small : string.length < 2 ^ 16) : readString data p = (string,p + (Cbor.text string).encode.length) := by
  obtain ⟨header,content⟩ := stands_append.mp here
  obtain ⟨inside,top,low,behind⟩ := head_at (by decide) header
  have start := header.inside (Nat.le_of_lt inside)
  have fits := content.inside start
  rw [readString,if_neg (Nat.not_le.mpr inside),top,if_neg (not_not.mpr rfl),low,
    readArgument_head behind inside (additional_short small) (by decide)]
  rw [length_head,← Nat.add_assoc] at content fits
  dsimp only [Option.getD_some]
  rw [if_neg (Nat.not_lt.mpr fits),content.slice,Cbor.encode,List.length_append,length_head,← Nat.add_assoc,
    ← Nat.add_assoc]

end Heads

section Skipping

variable {data : List UInt8} {p : Nat} {skip : Nat → Nat}

theorem iterate_ge (grows : ∀ q, q ≤ skip q) (n : Nat) : p ≤ skip^[n] p := by
  induction n generalizing p with
  | zero => exact Nat.le_refl p
  | succ n ih => exact Nat.le_trans (grows p) ih

theorem iterate_same {other : Nat → Nat} (grows : ∀ q, q ≤ skip q) (same : ∀ q, p < q → skip q = other q) (n : Nat)
    {q : Nat} (behind : p < q) : skip^[n] q = other^[n] q := by
  induction n generalizing q with
  | zero => rfl
  | succ n ih =>
    rw [Function.iterate_succ_apply,Function.iterate_succ_apply,← same q behind]
    exact ih (Nat.lt_of_lt_of_le behind (grows q))

theorem readArgument_behind (widest addInfo p : Nat) : p ≤ ((readArgument data widest addInfo p).getD (addInfo,p)).2 := by
  rw [readArgument]
  split
  next => exact Nat.le_refl p
  next =>
    split
    next => exact Nat.le_add_right p _
    next => exact Nat.le_refl p

theorem skipStep_ge (grows : ∀ q, q ≤ skip q) : p ≤ skipStep data skip p := by
  have behind := @readArgument_behind data 26 (addInfoAt data p) (p + 1)
  rw [skipStep]
  split
  next => exact Nat.le_refl p
  next =>
    dsimp only
    split
    next => omega
    next => omega
    next => exact Nat.le_trans (by omega) (iterate_ge grows _)
    next => exact Nat.le_trans (by omega) (iterate_ge (fun q => Nat.le_trans (grows q) (grows _)) _)
    next => omega

theorem skipStep_same {other : Nat → Nat} (grows : ∀ q, q ≤ skip q) (same : ∀ q, p < q → skip q = other q) :
    skipStep data skip p = skipStep data other p := by
  have behind := @readArgument_behind data 26 (addInfoAt data p) (p + 1)
  have twice : ∀ q, p < q → (skip ∘ skip) q = (other ∘ other) q := by
    intro q later
    rw [Function.comp_apply,Function.comp_apply,← same q later,same _ (Nat.lt_of_lt_of_le later (grows q))]
  rw [skipStep,skipStep]
  split
  next => rfl
  next =>
    dsimp only
    split
    next => rfl
    next => rfl
    next => exact iterate_same grows same _ (by omega)
    next => exact iterate_same (fun q => Nat.le_trans (grows q) (grows _)) twice _ (by omega)
    next => rfl

theorem skipNested_ge (depth p : Nat) : p ≤ skipNested data depth p := by
  induction depth generalizing p with
  | zero => exact Nat.le_refl p
  | succ depth ih => exact skipStep_ge ih

theorem skipNested_ended {depth : Nat} (ended : data.length ≤ p) : skipNested data depth p = p := by
  cases depth with
  | zero => rfl
  | succ depth => rw [skipNested,skipStep,if_pos ended]

theorem skipNested_enough {depth other : Nat} (enough : data.length ≤ p + depth) (also : data.length ≤ p + other) :
    skipNested data depth p = skipNested data other p := by
  induction depth generalizing p other with
  | zero => rw [skipNested_ended (p := p) enough,skipNested_ended (p := p) enough]
  | succ depth ih =>
    cases other with
    | zero => rw [skipNested_ended (p := p) also,skipNested_ended (p := p) also]
    | succ other => exact skipStep_same (skipNested_ge depth) (fun q later => ih (by omega) (by omega))

theorem skipValue_eq (p : Nat) : skipValue data p = skipStep data (skipValue data) p := by
  rw [skipValue,@skipNested_enough data p data.length (data.length + 1) (by omega) (by omega)]
  exact skipStep_same (skipNested_ge _) (fun _ _ => rfl)

end Skipping

section Plain

mutual
/-- A value without tags and without heads or floats of eight bytes. -/
def Plain : Cbor → Prop
  | .unsigned n => n < 2 ^ 32
  | .negative n => n < 2 ^ 32
  | .bytes data => data.length < 2 ^ 32
  | .text data => data.length < 2 ^ 32
  | .array items => items.length < 2 ^ 32 ∧ PlainItems items
  | .map entries => entries.length < 2 ^ 32 ∧ PlainEntries entries
  | .tag _ _ => False
  | .simple n => n < 2 ^ 32
  | .float16 _ => True
  | .float32 _ => True
  | .float64 _ => False

def PlainItems : List Cbor → Prop
  | [] => True
  | item :: rest => Plain item ∧ PlainItems rest

def PlainEntries : List (Cbor × Cbor) → Prop
  | [] => True
  | (key,value) :: rest => Plain key ∧ Plain value ∧ PlainEntries rest
end

variable {data : List UInt8}

theorem skipValue_head {p major n : Nat} (kind : major < 8) (here : Stands data p (Cbor.head major n))
    (small : n < 2 ^ 32) :
    skipValue data p = match major with
      | 2 | 3 => p + (Cbor.head major n).length + n
      | 4 => (skipValue data)^[n] (p + (Cbor.head major n).length)
      | 5 => (skipValue data ∘ skipValue data)^[n] (p + (Cbor.head major n).length)
      | _ => p + (Cbor.head major n).length := by
  obtain ⟨inside,top,low,behind⟩ := head_at kind here
  rw [skipValue_eq,skipStep,if_neg (Nat.not_le.mpr inside),top,low,
    readArgument_head behind inside (additional_word small) (Nat.le_refl _),length_head,← Nat.add_assoc]
  rfl

theorem skipValue_float {p width : Nat} {first : UInt8} {bits : Nat}
    (here : Stands data p (first :: (toLE (2 ^ width) bits).reverse)) (kind : (first >>> 5).toNat = 7)
    (known : (first &&& 0x1F).toNat = 24 + width) (short : width ≤ 2) :
    skipValue data p = p + (first :: (toLE (2 ^ width) bits).reverse).length := by
  obtain ⟨inside,byte,behind⟩ := stands_cons here
  have fits := behind.inside inside
  rw [List.length_reverse,length_toLE] at fits
  rw [skipValue_eq,skipStep,if_neg (Nat.not_le.mpr inside),majorAt,addInfoAt,byte,kind,known,readArgument,
    if_neg (by omega),Nat.add_sub_cancel_left,if_pos ⟨by omega,fits⟩,List.length_cons,List.length_reverse,length_toLE]
  change p + 1 + 2 ^ width = p + (2 ^ width + 1)
  omega

mutual
theorem skipValue_plain {p : Nat} : ∀ {value : Cbor}, Plain value → Stands data p value.encode →
    skipValue data p = p + value.encode.length
  | .unsigned _,plain,here => skipValue_head (by decide) here plain
  | .negative _,plain,here => skipValue_head (by decide) here plain
  | .bytes content,plain,here => by
    rw [Cbor.encode,List.length_append,← Nat.add_assoc]
    exact skipValue_head (by decide) (stands_append.mp here).1 plain
  | .text content,plain,here => by
    rw [Cbor.encode,List.length_append,← Nat.add_assoc]
    exact skipValue_head (by decide) (stands_append.mp here).1 plain
  | .array items,plain,here => by
    obtain ⟨header,behind⟩ := stands_append.mp here
    rw [skipValue_head (by decide) header plain.1,Cbor.encode,List.length_append,← Nat.add_assoc]
    exact skipValue_items plain.2 behind
  | .map entries,plain,here => by
    obtain ⟨header,behind⟩ := stands_append.mp here
    rw [skipValue_head (by decide) header plain.1,Cbor.encode,List.length_append,← Nat.add_assoc]
    exact skipValue_entries plain.2 behind
  | .tag _ _,plain,_ => plain.elim
  | .simple _,plain,here => skipValue_head (by decide) here plain
  | .float16 bits,_,here => @skipValue_float data p 1 0xF9 _ here (by decide) (by decide) (by decide)
  | .float32 bits,_,here => @skipValue_float data p 2 0xFA _ here (by decide) (by decide) (by decide)
  | .float64 _,plain,_ => plain.elim

theorem skipValue_items {p : Nat} : ∀ {items : List Cbor}, PlainItems items → Stands data p (Cbor.encodeItems items) →
    (skipValue data)^[items.length] p = p + (Cbor.encodeItems items).length
  | [],_,_ => rfl
  | item :: rest,plain,here => by
    obtain ⟨first,behind⟩ := stands_append.mp here
    rw [List.length_cons,Function.iterate_succ_apply,skipValue_plain plain.1 first,skipValue_items plain.2 behind,
      Cbor.encodeItems,List.length_append,Nat.add_assoc]

theorem skipValue_entries {p : Nat} : ∀ {entries : List (Cbor × Cbor)}, PlainEntries entries →
    Stands data p (Cbor.encodeEntries entries) →
    (skipValue data ∘ skipValue data)^[entries.length] p = p + (Cbor.encodeEntries entries).length
  | [],_,_ => rfl
  | (key,value) :: rest,plain,here => by
    obtain ⟨first,behind⟩ := stands_append.mp here
    obtain ⟨second,later⟩ := stands_append.mp behind
    rw [List.length_cons,Function.iterate_succ_apply,Function.comp_apply,skipValue_plain plain.1 first,
      skipValue_plain plain.2.1 second,skipValue_entries plain.2.2 later,Cbor.encodeEntries,List.length_append,
      List.length_append]
    omega
end

end Plain

/-! What the decoder for authenticatorGetInfo returns for a CBOR map whose known keys have values
of their kinds. Each entry is read right where its own lengths are of the widths the decoder knows,
and the next one is found where it is passed over to its end.
-/

/-- The entries of the answer, those of known keys with values of their kinds. -/
inductive InfoEntry where
  | versions (strings : List (List UInt8))
  | extensions (strings : List (List UInt8))
  | aaguid (id : Bytes 16)
  | options (settings : List (List UInt8 × Bool))
  | pinProtocols (protocols : List Nat)
  | firmwareVersion (version : Nat)
  | other (key : Nat) (value : Cbor)

namespace InfoEntry

def key : InfoEntry → Nat
  | versions _ => 0x01
  | extensions _ => 0x02
  | aaguid _ => 0x03
  | options _ => 0x04
  | pinProtocols _ => 0x06
  | firmwareVersion _ => 0x0E
  | other key _ => key

def knownKeys : List Nat := [0x01,0x02,0x03,0x04,0x06,0x0E]

def boolean (value : Bool) : Cbor := .simple (if value then 21 else 20)

def value : InfoEntry → Cbor
  | versions strings => .array (strings.map .text)
  | extensions strings => .array (strings.map .text)
  | aaguid id => .bytes id.data
  | options settings => .map (settings.map fun setting => (.text setting.1,boolean setting.2))
  | pinProtocols protocols => .array (protocols.map .unsigned)
  | firmwareVersion version => .unsigned version
  | other _ value => value

/-- Options have different names, as the keys of a map do, and another key is not a known one. -/
def Sound : InfoEntry → Prop
  | options settings => (settings.map Prod.fst).Nodup
  | other key _ => key < 2 ^ 64 ∧ key ∉ knownKeys
  | _ => True

/-- The lengths and numbers of a known key are of the widths that the decoder reads there. -/
def ReadRight : InfoEntry → Prop
  | versions strings => strings.length < 2 ^ 8 ∧ ∀ string ∈ strings, string ≠ [] ∧ string.length < 2 ^ 16
  | extensions strings => strings.length < 2 ^ 8 ∧ ∀ string ∈ strings, string ≠ [] ∧ string.length < 2 ^ 16
  | options settings => settings.length < 2 ^ 8 ∧ ∀ setting ∈ settings, setting.1.length < 2 ^ 16
  | firmwareVersion version => version < 2 ^ 32
  | _ => True

def PassedOver : InfoEntry → Prop
  | pinProtocols protocols => protocols.length < 24 ∧ ∀ protocol ∈ protocols, protocol < 2 ^ 32
  | other key value => key < 2 ^ 32 ∧ Plain value
  | _ => True

end InfoEntry

/-- A map in the order of its keys. -/
structure InfoMap where
  entries : List InfoEntry
  countable : entries.length < 2 ^ 64
  ascending : (entries.map InfoEntry.key).Pairwise (· < ·)
  sound : ∀ entry ∈ entries, entry.Sound
  wellFormed : ∀ entry ∈ entries, entry.value.WellFormed

def pairs (entries : List InfoEntry) : List (Cbor × Cbor) :=
  entries.map fun entry => (.unsigned entry.key,entry.value)

def InfoMap.encode (m : InfoMap) : List UInt8 := (Cbor.map (pairs m.entries)).encode

namespace InfoEntry

@[simp] def versionStrings : InfoEntry → List (List UInt8)
  | versions strings => strings
  | _ => []

@[simp] def extensionStrings : InfoEntry → List (List UInt8)
  | extensions strings => strings
  | _ => []

@[simp] def settings : InfoEntry → List (List UInt8 × Bool)
  | options settings => settings
  | _ => []

@[simp] def protocols : InfoEntry → List Nat
  | pinProtocols protocols => protocols
  | _ => []

@[simp] def version? : InfoEntry → Option (List UInt8)
  | firmwareVersion version => some (asciiBytes (toString version))
  | _ => none

@[simp] def aaguid? : InfoEntry → Option (List UInt8)
  | aaguid id => some (toHex id.data)
  | _ => none

end InfoEntry

def clientPin (entries : List InfoEntry) : Option Bool :=
  (entries.flatMap InfoEntry.settings).lookup (asciiBytes "clientPin")

/-- The information with the strings, the option and the version of the map; the identifier
stands for the version where there is none. -/
def decoded (entries : List InfoEntry) (base : Fido2DeviceInfo) : Fido2DeviceInfo :=
  { base with
    protocols := base.protocols ++ entries.flatMap InfoEntry.versionStrings
    extensions := base.extensions ++ entries.flatMap InfoEntry.extensionStrings
    firmwareVersion :=
      ((entries.findSome? InfoEntry.version?).or (entries.findSome? InfoEntry.aaguid?)).getD base.firmwareVersion
    supportsPinProtocol := base.supportsPinProtocol || (clientPin entries).isSome ||
      !(entries.flatMap InfoEntry.protocols).isEmpty
    hasPin := (clientPin entries).getD base.hasPin }

def record (info : Fido2DeviceInfo) : InfoEntry → Fido2DeviceInfo
  | .versions strings => { info with protocols := info.protocols ++ strings }
  | .extensions strings => { info with extensions := info.extensions ++ strings }
  | .aaguid id => { info with firmwareVersion := toHex id.data }
  | .options settings =>
    match settings.lookup (asciiBytes "clientPin") with
    | none => info
    | some value => { info with supportsPinProtocol := true,hasPin := value }
  | .pinProtocols protocols => if protocols = [] then info else { info with supportsPinProtocol := true }
  | .firmwareVersion version => { info with firmwareVersion := asciiBytes (toString version) }
  | .other _ _ => info

section Reading

variable {data : List UInt8} {p : Nat}

theorem readStrings_texts {strings : List (List UInt8)}
    (fits : ∀ string ∈ strings, string ≠ [] ∧ string.length < 2 ^ 16)
    (here : Stands data p (Cbor.encodeItems (strings.map .text))) (before : List (List UInt8)) :
    readStrings data strings.length p before =
      (before ++ strings,p + (Cbor.encodeItems (strings.map .text)).length) := by
  induction strings generalizing p before with
  | nil => rw [List.append_nil]; rfl
  | cons string rest ih =>
    obtain ⟨first,behind⟩ := stands_append.mp here
    obtain ⟨some_byte,short⟩ := fits string List.mem_cons_self
    have inside := (head_at (by decide) (stands_append.mp first).1).1
    rw [List.length_cons,readStrings,if_pos inside,readString_text first short]
    dsimp only
    rw [if_neg some_byte,ih (fun other member => fits other (List.mem_cons_of_mem _ member)) behind,List.append_assoc,
      List.map_cons,Cbor.encodeItems,List.length_append,Nat.add_assoc]
    rfl

theorem readUints_numbers {numbers : List Nat} (fits : ∀ number ∈ numbers, number < 2 ^ 32)
    (here : Stands data p (Cbor.encodeItems (numbers.map .unsigned))) :
    readUints data numbers.length p = p + (Cbor.encodeItems (numbers.map .unsigned)).length := by
  induction numbers generalizing p with
  | nil => rfl
  | cons number rest ih =>
    obtain ⟨first,behind⟩ := stands_append.mp here
    have inside := (head_at (by decide) first).1
    rw [List.length_cons,readUints,if_pos inside,readUint_head first (fits number List.mem_cons_self)]
    dsimp only
    rw [List.map_cons,Cbor.encodeItems,List.length_append,← Nat.add_assoc]
    exact ih (fun other member => fits other (List.mem_cons_of_mem _ member)) behind

def recordOption (info : Fido2DeviceInfo) (setting : List UInt8 × Bool) : Fido2DeviceInfo :=
  if setting.1 = asciiBytes "clientPin" then { info with supportsPinProtocol := true,hasPin := setting.2 } else info

theorem boolean_byte (value : Bool) : (InfoEntry.boolean value).encode = [if value then 0xF5 else 0xF4] := by
  cases value <;> decide

theorem readOptions_settings {settings : List (List UInt8 × Bool)} (fits : ∀ setting ∈ settings, setting.1.length < 2 ^ 16)
    (here : Stands data p (Cbor.encodeEntries (settings.map fun setting => (.text setting.1,InfoEntry.boolean setting.2))))
    (info : Fido2DeviceInfo) :
    readOptions data settings.length p info = (settings.foldl recordOption info,
      p + (Cbor.encodeEntries (settings.map fun setting => (.text setting.1,InfoEntry.boolean setting.2))).length) := by
  induction settings generalizing p info with
  | nil => rfl
  | cons setting rest ih =>
    obtain ⟨name,behind⟩ := stands_append.mp here
    obtain ⟨value,later⟩ := stands_append.mp behind
    have inside := (head_at (by decide) (stands_append.mp name).1).1
    rw [boolean_byte] at value later
    obtain ⟨there,byte,_⟩ := stands_cons value
    have read : (data.getD (p + (Cbor.text setting.1).encode.length) 0 == 0xF5) = setting.2 := by
      rw [byte]
      cases setting.2 <;> rfl
    rw [List.length_cons,readOptions,if_pos inside,readString_text name (fits setting List.mem_cons_self)]
    dsimp only
    rw [if_pos there,read]
    dsimp only
    rw [List.map_cons,Cbor.encodeEntries,List.length_append,List.length_append,boolean_byte,← Nat.add_assoc,
      ← Nat.add_assoc]
    exact ih (fun other member => fits other (List.mem_cons_of_mem _ member)) later _

end Reading

section Entries

variable {data : List UInt8} {p : Nat} (info : Fido2DeviceInfo)

/-- Of options with different names one only is the wanted one. -/
theorem foldl_settings {settings : List (List UInt8 × Bool)} (distinct : (settings.map Prod.fst).Nodup) :
    settings.foldl recordOption info = record info (.options settings) := by
  induction settings generalizing info with
  | nil => rfl
  | cons setting rest ih =>
    obtain ⟨fresh,others⟩ := List.nodup_cons.mp distinct
    rw [List.foldl_cons,ih _ others]
    by_cases wanted : setting.1 = asciiBytes "clientPin"
    · have absent : rest.lookup (asciiBytes "clientPin") = none := by
        rw [List.lookup_eq_none_iff]
        intro other member
        rw [bne_iff_ne,← wanted]
        exact fun same => fresh (same ▸ List.mem_map_of_mem member)
      have found : (setting :: rest).lookup (asciiBytes "clientPin") = some setting.2 := by
        rw [List.lookup_cons,wanted,beq_self_eq_true]
      rw [record,record,absent,found,recordOption,if_pos wanted]
    · have passed : (setting :: rest).lookup (asciiBytes "clientPin") = rest.lookup (asciiBytes "clientPin") := by
        rw [List.lookup_cons,beq_false_of_ne (Ne.symm wanted)]
      rw [record,record,passed,recordOption,if_neg wanted]

theorem readTexts {strings : List (List UInt8)}
    (right : strings.length < 2 ^ 8 ∧ ∀ string ∈ strings, string ≠ [] ∧ string.length < 2 ^ 16)
    (here : Stands data p (Cbor.array (strings.map .text)).encode) (before : List (List UInt8)) :
    ¬ data.length ≤ p ∧ readStrings data (readLength data p).1 (readLength data p).2 before =
      (before ++ strings,p + (Cbor.array (strings.map .text)).encode.length) := by
  obtain ⟨header,behind⟩ := stands_append.mp here
  have inside := (head_at (by decide) header).1
  rw [List.length_map] at header behind
  refine ⟨Nat.not_le.mpr inside,?_⟩
  rw [readLength_head (by decide) header right.1,readStrings_texts right.2 behind,Cbor.encode,List.length_append,
    List.length_map,Nat.add_assoc]

theorem readEntry_versions {strings : List (List UInt8)} (right : (InfoEntry.versions strings).ReadRight)
    (here : Stands data p (InfoEntry.versions strings).value.encode) :
    readEntry data 0x01 p info =
      (record info (.versions strings),p + (InfoEntry.versions strings).value.encode.length) := by
  obtain ⟨inside,read⟩ := readTexts right here info.protocols
  rw [readEntry,if_neg inside]
  dsimp only
  rw [read]
  rfl

theorem readEntry_extensions {strings : List (List UInt8)} (right : (InfoEntry.extensions strings).ReadRight)
    (here : Stands data p (InfoEntry.extensions strings).value.encode) :
    readEntry data 0x02 p info =
      (record info (.extensions strings),p + (InfoEntry.extensions strings).value.encode.length) := by
  obtain ⟨inside,read⟩ := readTexts right here info.extensions
  rw [readEntry,if_neg inside]
  dsimp only
  rw [read]
  rfl

theorem readEntry_aaguid {id : Bytes 16} (here : Stands data p (InfoEntry.aaguid id).value.encode) :
    readEntry data 0x03 p info = (record info (.aaguid id),p + (InfoEntry.aaguid id).value.encode.length) := by
  obtain ⟨header,behind⟩ := stands_append.mp here
  have inside := (head_at (by decide) header).1
  rw [id.size] at header behind
  have room := behind.inside (header.inside (Nat.le_of_lt inside))
  have read := behind.slice
  rw [id.size] at room read
  rw [readEntry,if_neg (Nat.not_le.mpr inside),readLength_head (by decide) header (by decide)]
  dsimp only
  rw [if_pos ⟨rfl,room⟩,read,InfoEntry.value,Cbor.encode,List.length_append,id.size,Nat.add_assoc]
  rfl

theorem readEntry_options {settings : List (List UInt8 × Bool)} (right : (InfoEntry.options settings).ReadRight)
    (sound : (InfoEntry.options settings).Sound) (here : Stands data p (InfoEntry.options settings).value.encode) :
    readEntry data 0x04 p info =
      (record info (.options settings),p + (InfoEntry.options settings).value.encode.length) := by
  obtain ⟨header,behind⟩ := stands_append.mp here
  have inside := (head_at (by decide) header).1
  rw [List.length_map] at header behind
  rw [readEntry,if_neg (Nat.not_le.mpr inside),readLength_head (by decide) header right.1]
  dsimp only
  rw [readOptions_settings right.2 behind,foldl_settings info sound,InfoEntry.value,Cbor.encode,List.length_append,
    List.length_map,Nat.add_assoc]

theorem readEntry_pinProtocols {protocols : List Nat} (here : Stands data p (InfoEntry.pinProtocols protocols).value.encode) :
    (readEntry data 0x06 p info).1 = record info (.pinProtocols protocols) := by
  obtain ⟨header,_⟩ := stands_append.mp here
  obtain ⟨inside,_,low,_⟩ := head_at (by decide) header
  rw [List.length_map] at low
  rw [readEntry,if_neg (Nat.not_le.mpr inside),low]
  dsimp only
  cases protocols with
  | nil => rfl
  | cons protocol rest =>
    rw [if_pos (additional_pos (List.length_pos_of_ne_nil (List.cons_ne_nil _ _))),record,if_neg (List.cons_ne_nil _ _)]

theorem readEntry_pinProtocols_passed {protocols : List Nat} (passed : (InfoEntry.pinProtocols protocols).PassedOver)
    (here : Stands data p (InfoEntry.pinProtocols protocols).value.encode) :
    (readEntry data 0x06 p info).2 = p + (InfoEntry.pinProtocols protocols).value.encode.length := by
  obtain ⟨header,behind⟩ := stands_append.mp here
  obtain ⟨inside,_,low,_⟩ := head_at (by decide) header
  have one : Cbor.additional protocols.length = protocols.length := by rw [Cbor.additional,if_pos passed.1]
  have single : (Cbor.head 4 protocols.length).length = 1 := by
    rw [length_head,Cbor.argument,if_pos passed.1]
    rfl
  rw [List.length_map] at low behind
  rw [single] at behind
  rw [readEntry,if_neg (Nat.not_le.mpr inside),low,one]
  dsimp only
  rw [readUints_numbers passed.2 behind,InfoEntry.value,Cbor.encode,List.length_append,List.length_map,single,
    Nat.add_assoc]

theorem readEntry_firmwareVersion {version : Nat} (right : (InfoEntry.firmwareVersion version).ReadRight)
    (here : Stands data p (InfoEntry.firmwareVersion version).value.encode) :
    readEntry data 0x0E p info =
      (record info (.firmwareVersion version),p + (InfoEntry.firmwareVersion version).value.encode.length) := by
  rw [readEntry,readUint_head here right]
  rfl

theorem readEntry_other {key : Nat} (unknown : key ∉ InfoEntry.knownKeys) :
    readEntry data key p info = (info,skipValue data p) := by
  unfold readEntry
  split
  case h_7 => rfl
  all_goals exact absurd (by decide) unknown

theorem readEntry_right {entry : InfoEntry} (right : entry.ReadRight) (sound : entry.Sound)
    (here : Stands data p entry.value.encode) : (readEntry data entry.key p info).1 = record info entry := by
  cases entry with
  | versions strings => exact congrArg Prod.fst (readEntry_versions info right here)
  | extensions strings => exact congrArg Prod.fst (readEntry_extensions info right here)
  | aaguid id => exact congrArg Prod.fst (readEntry_aaguid info here)
  | options settings => exact congrArg Prod.fst (readEntry_options info right sound here)
  | pinProtocols protocols => exact readEntry_pinProtocols info here
  | firmwareVersion version => exact congrArg Prod.fst (readEntry_firmwareVersion info right here)
  | other key value => exact congrArg Prod.fst (readEntry_other info sound.2)

theorem readEntry_passed {entry : InfoEntry} (right : entry.ReadRight) (sound : entry.Sound) (passed : entry.PassedOver)
    (here : Stands data p entry.value.encode) :
    (readEntry data entry.key p info).2 = p + entry.value.encode.length := by
  cases entry with
  | versions strings => exact congrArg Prod.snd (readEntry_versions info right here)
  | extensions strings => exact congrArg Prod.snd (readEntry_extensions info right here)
  | aaguid id => exact congrArg Prod.snd (readEntry_aaguid info here)
  | options settings => exact congrArg Prod.snd (readEntry_options info right sound here)
  | pinProtocols protocols => exact readEntry_pinProtocols_passed info passed here
  | firmwareVersion version => exact congrArg Prod.snd (readEntry_firmwareVersion info right here)
  | other key value =>
    change (readEntry data key p info).2 = p + value.encode.length
    rw [readEntry_other info sound.2]
    exact skipValue_plain passed.2 here

theorem InfoEntry.key_large {entry : InfoEntry} (large : ¬ entry.key < 2 ^ 32) : ∃ key value, entry = other key value := by
  cases entry with
  | other key value => exact ⟨key,value,rfl⟩
  | versions | extensions | aaguid | options | pinProtocols | firmwareVersion =>
    exact absurd (Nat.le_of_ble_eq_true rfl) large

theorem InfoEntry.PassedOver.key_lt {entry : InfoEntry} (passed : entry.PassedOver) : entry.key < 2 ^ 32 := by
  by_contra large
  obtain ⟨key,value,rfl⟩ := key_large large
  exact large passed.1

theorem keyed_right {entry : InfoEntry} (right : entry.ReadRight) (sound : entry.Sound)
    (key_here : Stands data p (Cbor.unsigned entry.key).encode)
    (here : Stands data (p + (Cbor.unsigned entry.key).encode.length) entry.value.encode) :
    (readEntry data (readUint data p).1 (readUint data p).2 info).1 = record info entry := by
  by_cases small : entry.key < 2 ^ 32
  · rw [readUint_head key_here small]
    exact readEntry_right info right sound here
  · rw [readUint_long key_here (Nat.le_of_not_lt small),readEntry_other info (by decide)]
    obtain ⟨key,value,rfl⟩ := InfoEntry.key_large small
    rfl

theorem readMap_entries {entries : List InfoEntry} (right : ∀ entry ∈ entries, entry.ReadRight)
    (sound : ∀ entry ∈ entries, entry.Sound) (passed : ∀ entry ∈ entries.dropLast, entry.PassedOver)
    (here : Stands data p (Cbor.encodeEntries (pairs entries))) :
    readMap data entries.length p info = entries.foldl record info := by
  induction entries generalizing p info with
  | nil => rfl
  | cons entry rest ih =>
    obtain ⟨key_here,behind⟩ := stands_append.mp here
    obtain ⟨value_here,later⟩ := stands_append.mp behind
    have inside := (head_at (by decide) key_here).1
    have reads := keyed_right info (right entry List.mem_cons_self) (sound entry List.mem_cons_self) key_here value_here
    rw [List.length_cons,readMap,if_pos inside,List.foldl_cons,← reads]
    cases rest with
    | nil => rfl
    | cons second rest =>
      have leaves := passed entry List.mem_cons_self
      have place := readEntry_passed info (right entry List.mem_cons_self) (sound entry List.mem_cons_self) leaves value_here
      rw [readUint_head key_here leaves.key_lt]
      dsimp only
      change readMap data (second :: rest).length (readEntry data entry.key (p + (Cbor.unsigned entry.key).encode.length) info).2 _ = _
      rw [place]
      exact ih _ (fun other member => right other (List.mem_cons_of_mem _ member))
        (fun other member => sound other (List.mem_cons_of_mem _ member))
        (fun other member => passed other (List.mem_cons_of_mem _ member)) later

end Entries

section Decoded

variable {rest : List InfoEntry} {key : Nat}

theorem no_version (behind : ∀ entry ∈ rest, 0x0E ≤ key ∧ key < entry.key) : rest.findSome? InfoEntry.version? = none := by
  rw [List.findSome?_eq_none_iff]
  intro entry member
  have later := behind entry member
  cases entry with
  | firmwareVersion version => exact absurd later.2 (Nat.not_lt.mpr later.1)
  | versions | extensions | aaguid | options | pinProtocols | other => rfl

theorem no_aaguid (behind : ∀ entry ∈ rest, 0x03 ≤ key ∧ key < entry.key) : rest.findSome? InfoEntry.aaguid? = none := by
  rw [List.findSome?_eq_none_iff]
  intro entry member
  have later := behind entry member
  cases entry with
  | aaguid id => exact absurd later.2 (Nat.not_lt.mpr later.1)
  | versions | extensions | firmwareVersion | options | pinProtocols | other => rfl

theorem no_settings (behind : ∀ entry ∈ rest, 0x04 ≤ key ∧ key < entry.key) : rest.flatMap InfoEntry.settings = [] := by
  rw [List.flatMap_eq_nil_iff]
  intro entry member
  have later := behind entry member
  cases entry with
  | options settings => exact absurd later.2 (Nat.not_lt.mpr later.1)
  | versions | extensions | firmwareVersion | aaguid | pinProtocols | other => rfl

theorem foldl_record {entries : List InfoEntry} (ascending : (entries.map InfoEntry.key).Pairwise (· < ·))
    (base : Fido2DeviceInfo) : entries.foldl record base = decoded entries base := by
  induction entries generalizing base with
  | nil => simp [decoded,clientPin]
  | cons entry rest ih =>
    obtain ⟨behind,others⟩ := List.pairwise_cons.mp ascending
    have later : ∀ other ∈ rest, entry.key ≤ entry.key ∧ entry.key < other.key :=
      fun other member => ⟨Nat.le_refl _,behind _ (List.mem_map_of_mem member)⟩
    rw [List.foldl_cons,ih others]
    cases entry with
    | versions strings =>
      simp [decoded,clientPin,record,List.findSome?_cons]
    | extensions strings =>
      simp [decoded,clientPin,record,List.findSome?_cons]
    | aaguid id =>
      simp [decoded,clientPin,record,List.findSome?_cons,no_aaguid later]
    | options settings =>
      cases found : settings.lookup (asciiBytes "clientPin") with
      | none => simp [decoded,clientPin,record,List.findSome?_cons,no_settings later,found]
      | some value => simp [decoded,clientPin,record,List.findSome?_cons,no_settings later,found]
    | pinProtocols protocols =>
      cases protocols with
      | nil => simp [decoded,clientPin,record,List.findSome?_cons]
      | cons protocol protocols => simp [decoded,clientPin,record,List.findSome?_cons]
    | firmwareVersion version =>
      have nothing_else := @no_aaguid rest 0x0E (fun other member => ⟨by decide,(later other member).2⟩)
      simp [decoded,clientPin,record,List.findSome?_cons,no_version later,nothing_else]
    | other key value =>
      simp [decoded,clientPin,record,List.findSome?_cons]

end Decoded

/-- The decoder keeps in step with the map: it counts the entries, reads those of known keys right
and passes over all but the last one. -/
structure InfoMap.InStep (m : InfoMap) : Prop where
  counted : m.entries.length < 2 ^ 8
  right : ∀ entry ∈ m.entries, entry.ReadRight
  passed : ∀ entry ∈ m.entries.dropLast, entry.PassedOver

/-- The answer of an authenticator gives its strings, the option and the version, whatever other
keys there are, where the decoder keeps in step with it. -/
theorem parseGetInfoResponse_decoded (m : InfoMap) (base : Fido2DeviceInfo) (inStep : m.InStep) :
    parseGetInfoResponse m.encode base = .ok (decoded m.entries base) := by
  have whole : Stands m.encode 0 m.encode := List.prefix_refl _
  obtain ⟨header,behind⟩ := stands_append.mp whole
  obtain ⟨inside,top,_,_⟩ := head_at (by decide) header
  have nonempty : m.encode ≠ [] := List.length_pos_iff.mp inside
  have count : (pairs m.entries).length = m.entries.length := List.length_map _
  have length := readLength_head (by decide) header (by rw [count]; exact inStep.counted)
  rw [count] at length behind
  rw [parseGetInfoResponse,if_neg nonempty,top,if_neg (not_not.mpr rfl),length]
  dsimp only
  rw [readMap_entries base inStep.right m.sound inStep.passed behind,foldl_record m.ascending]

section Samples

/-- An answer with a nested value under an unknown key and a long float under the last one. -/
def sampleMap : InfoMap where
  entries := [.versions [asciiBytes "U2F_V2",asciiBytes "FIDO_2_0"],.aaguid (Bytes.zero 16),
    .options [(asciiBytes "rk",true),(asciiBytes "clientPin",true)],
    .other 0x05 (.map [(.text (asciiBytes "alg"),.array [.negative 6,.float32 0])]),.pinProtocols [1,2],
    .firmwareVersion 328707,.other 0x10 (.float64 0)]
  countable := by decide
  ascending := by decide
  sound := by
    simp only [List.forall_mem_cons,InfoEntry.Sound]
    exact ⟨trivial,trivial,by decide,by decide,trivial,trivial,by decide,fun _ member => absurd member List.not_mem_nil⟩
  wellFormed := by
    simp [InfoEntry.value,InfoEntry.boolean,Cbor.WellFormed,Cbor.ItemsWellFormed,Cbor.EntriesWellFormed,Bytes.zero,asciiBytes]

theorem sampleMap_decoded : parseGetInfoResponse sampleMap.encode {} = .ok (decoded sampleMap.entries {}) := by
  apply parseGetInfoResponse_decoded
  refine ⟨by decide,?_,?_⟩
  · simp [sampleMap,InfoEntry.ReadRight,asciiBytes]
  · simp [sampleMap,InfoEntry.PassedOver,Plain,PlainItems,PlainEntries,asciiBytes]

def wideMap : InfoMap where
  entries := [.versions [asciiBytes "FIDO_2_0"],.other 0x05 (.unsigned (2 ^ 32)),.firmwareVersion 7]
  countable := by decide
  ascending := by decide
  sound := by
    simp only [List.forall_mem_cons,InfoEntry.Sound]
    exact ⟨trivial,by decide,trivial,fun _ member => absurd member List.not_mem_nil⟩
  wellFormed := by
    simp [InfoEntry.value,Cbor.WellFormed,Cbor.ItemsWellFormed,asciiBytes]

/-- Seven of the eight bytes are left behind, and the version is not read. -/
theorem wideMap_lost : parseGetInfoResponse wideMap.encode {} ≠ .ok (decoded wideMap.entries {}) := by
  intro same
  have version := congrArg (fun info => info.toOption.map Fido2DeviceInfo.firmwareVersion) same
  revert version
  decide

def evenMap : InfoMap where
  entries := [.pinProtocols (List.replicate 24 1),.firmwareVersion 7]
  countable := by decide
  ascending := by decide
  sound := by simp [InfoEntry.Sound]
  wellFormed := by
    simp [InfoEntry.value,Cbor.WellFormed,Cbor.ItemsWellFormed]

/-- A map out of step may be read right by accident: here the length takes the place of a number. -/
theorem evenMap_decoded : ¬ evenMap.InStep ∧
    (parseGetInfoResponse evenMap.encode {}).toOption = some (decoded evenMap.entries {}) := by
  refine ⟨fun inStep => ?_,by decide⟩
  exact absurd (inStep.passed _ List.mem_cons_self).1 (by decide)

end Samples

end SetecWizard.Core.Fido2Manager
