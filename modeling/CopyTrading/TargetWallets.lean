import CopyTrading.Wallet
import CopyTrading.Fallible
import Mathlib.Data.List.Forall2

namespace CopyTrading

inductive WalletProblem
  | badAddress (e : IdError)
  | duplicate
  | notANumber (what text : String)
  | ratioOutOfRange (ratio : Decimal)
  deriving DecidableEq

/-- The entry of the list, or its address, and what is wrong with it. -/
structure BadWallet where
  entry : String
  problem : WalletProblem
  deriving DecidableEq

/-- The entries of the list; blank ones are passed over. -/
def walletEntries (raw : List Char) : List (List Char) :=
  ((raw.splitOn ',').map trim).filter fun entry => entry ≠ []

def walletParts (entry : List Char) : List (List Char) := (entry.splitOn ':').map trim

/-- A part that is there and not blank. -/
def partAt (parts : List (List Char)) (i : Nat) : Option String :=
  (parts[i]?.filter fun part => part ≠ []).map String.ofList

/-- What stands for the nickname of a wallet that has none. -/
def Address.short (a : Address) : String :=
  String.ofList (a.asStr.toList.take 6 ++ '…' :: a.asStr.toList.drop 38)

section Parsing

variable (parseDecimal : String → Option Decimal)

/-- A part that is a number, if it is there. -/
def numberAt (entry : List Char) (what : String) (parts : List (List Char)) (i : Nat) :
    Except BadWallet (Option Decimal) :=
  match partAt parts i with
  | none => .ok none
  | some text =>
    match parseDecimal text with
    | some d => .ok (some d)
    | none => .error ⟨String.ofList entry, .notANumber what text⟩

def addressOf (parts : List (List Char)) : Except BadWallet Address :=
  let text := String.ofList (parts.headD [])
  match Address.new text with
  | .ok a => .ok a
  | .error e => .error ⟨text, .badAddress e⟩

def sizedBy (entry : List Char) (w : TargetWallet) : Option Decimal → Except BadWallet TargetWallet
  | none => .ok w
  | some ratio =>
    if ratio ≤ 0 ∨ 10 < ratio then .error ⟨String.ofList entry, .ratioOutOfRange ratio⟩
    else .ok { w with sizing := .fixedRatio ratio }

/-- `addr:nickname:ratio:max_trade:max_exposure`; only the address is mandatory. -/
def walletOf (entry : List Char) (addr : Address) : Except BadWallet TargetWallet := do
  let parts := walletParts entry
  let ratio ← numberAt parseDecimal entry "copy ratio" parts 2
  let w ← sizedBy entry (TargetWallet.new addr ((partAt parts 1).getD addr.short)) ratio
  let maxTrade ← numberAt parseDecimal entry "max trade" parts 3
  let maxExposure ← numberAt parseDecimal entry "max exposure" parts 4
  .ok { w with
    maxTradeUsd := maxTrade.getD w.maxTradeUsd
    maxExposureUsd := maxExposure.getD w.maxExposureUsd }

def parseEntries (seen : List Address) : List (List Char) → Except BadWallet (List TargetWallet)
  | [] => .ok []
  | entry :: rest => do
    let addr ← addressOf (walletParts entry)
    if addr ∈ seen then .error ⟨addr.asStr, .duplicate⟩
    else
      let w ← walletOf parseDecimal entry addr
      let ws ← parseEntries (addr :: seen) rest
      .ok (w :: ws)

def parseTargetWallets (raw : String) : Except BadWallet (List TargetWallet) :=
  parseEntries parseDecimal [] (walletEntries raw.toList)

/-- What an entry is read as, by itself. -/
def readEntry (entry : List Char) : Except BadWallet TargetWallet := do
  let addr ← addressOf (walletParts entry)
  walletOf parseDecimal entry addr

end Parsing

theorem trim_begins (s : List Char) : trim s <+: s.dropWhile isWhitespace :=
  List.rdropWhile_prefix isWhitespace (s.dropWhile isWhitespace)

theorem mem_of_mem_trim {s : List Char} {c : Char} (mem : c ∈ trim s) : c ∈ s :=
  (List.dropWhile_sublist _).mem ((trim_begins s).mem mem)

theorem trim_eq_self {s : List Char} (first : ∀ c, s.head? = some c → isWhitespace c = false)
    (last : ∀ c, s.getLast? = some c → isWhitespace c = false) : trim s = s := by
  have front : s.dropWhile isWhitespace = s := by
    cases s with
    | nil => rfl
    | cons c s =>
      have plain := first c rfl
      simp [plain]
  unfold trim
  rw [front]
  refine List.rdropWhile_eq_self_iff.mpr ?_
  intro some
  have plain := last _ (List.getLast?_eq_getLast_of_ne_nil some)
  simp [plain]

theorem last_of_trim {s : List Char} {c : Char} (last : (trim s).getLast? = some c) :
    isWhitespace c = false := by
  have some : trim s ≠ [] := by
    intro none
    rw [none] at last
    cases last
  have plain := List.rdropWhile_last_not isWhitespace (s.dropWhile isWhitespace) some
  rw [List.getLast?_eq_getLast_of_ne_nil some] at last
  cases last
  exact Bool.eq_false_iff.mpr plain

theorem trim_trim (s : List Char) : trim (trim s) = trim s := by
  refine trim_eq_self ?_ fun _ => last_of_trim
  intro c head
  obtain ⟨rest, eq⟩ := trim_begins s
  have same : (s.dropWhile isWhitespace).head? = some c := by
    rw [← eq, List.head?_append, head]
    rfl
  have plain := List.head?_dropWhile_not isWhitespace s
  rw [same] at plain
  exact plain

/-- A piece of a split text is made of what the text holds besides the separator. -/
theorem mem_of_mem_splitOn {s piece : List Char} {sep : Char} (mem : piece ∈ s.splitOn sep) :
    ∀ c ∈ piece, c ∈ s ∧ c ≠ sep := by
  induction s generalizing piece with
  | nil =>
    rw [List.splitOn_nil, List.mem_singleton] at mem
    rw [mem]
    exact List.forall_mem_nil _
  | cons d s ih =>
    have later : ∀ piece ∈ s.splitOn sep, ∀ c ∈ piece, c ∈ d :: s ∧ c ≠ sep := by
      intro piece mem c held
      obtain ⟨old, other⟩ := ih mem c held
      exact ⟨List.mem_cons_of_mem _ old, other⟩
    rw [List.splitOn_cons_eq_if_modifyHead] at mem
    split at mem
    next =>
      rcases List.mem_cons.mp mem with rfl | mem
      · exact List.forall_mem_nil _
      · exact later piece mem
    next other =>
      obtain ⟨first, rest, eq⟩ := List.exists_cons_of_ne_nil (List.splitOn_ne_nil sep s)
      rw [eq, List.modifyHead_cons] at mem
      rw [eq] at later
      rcases List.mem_cons.mp mem with rfl | mem
      · have here : d ≠ sep := by simpa using other
        intro c held
        rcases List.mem_cons.mp held with rfl | held
        · exact ⟨List.mem_cons_self, here⟩
        · exact later first List.mem_cons_self c held
      · exact later piece (List.mem_cons_of_mem _ mem)

/-- A text that a part of an entry can hold. -/
def PartText (s : List Char) : Prop := s ≠ [] ∧ trim s = s ∧ ',' ∉ s ∧ ':' ∉ s

theorem plain_of_mem_walletParts {raw entry part : List Char} (listed : entry ∈ walletEntries raw)
    (mem : part ∈ walletParts entry) (some : part ≠ []) : PartText part := by
  obtain ⟨piece, cut, rfl⟩ := List.mem_map.mp (List.mem_of_mem_filter listed)
  obtain ⟨sub, split, rfl⟩ := List.mem_map.mp mem
  refine ⟨some, trim_trim sub, ?_, ?_⟩
  · intro held
    obtain ⟨old, _⟩ := mem_of_mem_splitOn split _ (mem_of_mem_trim held)
    exact (mem_of_mem_splitOn cut _ (mem_of_mem_trim old)).2 rfl
  · intro held
    exact (mem_of_mem_splitOn split _ (mem_of_mem_trim held)).2 rfl

theorem partAt_plain {raw entry : List Char} {i : Nat} {text : String}
    (listed : entry ∈ walletEntries raw) (at_ : partAt (walletParts entry) i = some text) :
    PartText text.toList := by
  unfold partAt at at_
  obtain ⟨part, held, rfl⟩ := Option.map_eq_some_iff.mp at_
  obtain ⟨found, some⟩ := Option.filter_eq_some_iff.mp held
  rw [String.toList_ofList]
  exact plain_of_mem_walletParts listed (List.mem_of_getElem? found) (by simpa using some)

theorem Address.mem_text (a : Address) :
    ∀ c ∈ a.asStr.toList, isLowerHexDigit c = true ∨ c = 'x' := by
  have valid := a.valid
  unfold isHexText at valid
  split at valid
  next body eq =>
    intro c mem
    rw [eq] at mem
    have digits := List.all_eq_true.mp (Bool.and_eq_true_iff.mp valid).2
    rcases List.mem_cons.mp mem with rfl | mem
    · exact .inl (by decide)
    rcases List.mem_cons.mp mem with rfl | mem
    · exact .inr rfl
    exact .inl (digits c mem)
  next => cases valid

theorem Address.plain (a : Address) : PartText a.asStr.toList := by
  have text := a.mem_text
  refine ⟨?_, trim_of_plain fun c mem => not_isWhitespace (text c mem), ?_, ?_⟩
  · obtain ⟨body, eq, _⟩ := isHexText_cases a.valid
    rw [eq]
    exact List.cons_ne_nil _ _
  · intro mem
    exact absurd (text _ mem) (by decide)
  · intro mem
    exact absurd (text _ mem) (by decide)

theorem Address.short_plain (a : Address) : PartText a.short.toList := by
  have text : ∀ c ∈ a.short.toList, isLowerHexDigit c = true ∨ c = 'x' ∨ c = '…' := by
    intro c mem
    unfold short at mem
    rw [String.toList_ofList] at mem
    rcases List.mem_append.mp mem with mem | mem
    · exact (a.mem_text c (List.mem_of_mem_take mem)).imp_right .inl
    rcases List.mem_cons.mp mem with rfl | mem
    · exact .inr (.inr rfl)
    · exact (a.mem_text c (List.mem_of_mem_drop mem)).imp_right .inl
  refine ⟨?_, trim_of_plain ?_, ?_, ?_⟩
  · unfold short
    rw [String.toList_ofList]
    exact List.append_ne_nil_of_right_ne_nil _ (List.cons_ne_nil _ _)
  · intro c mem
    rcases text c mem with hex | rfl | rfl
    · exact not_isWhitespace (.inl hex)
    · exact not_isWhitespace (.inr rfl)
    · decide
  · intro mem
    exact absurd (text _ mem) (by decide)
  · intro mem
    exact absurd (text _ mem) (by decide)

section Listing

variable (parseDecimal : String → Option Decimal)

/-- What a number of an entry can be written as: left blank, where it is the default. -/
def NumberText (default d : Decimal) (text : List Char) : Prop :=
  (text = [] ∧ d = default) ∨ (PartText text ∧ parseDecimal (String.ofList text) = some d)

/-- The texts of an entry's three numbers. -/
structure NumberTexts where
  ratio : List Char
  maxTrade : List Char
  maxExposure : List Char

def TargetWallet.parts (w : TargetWallet) (n : NumberTexts) : List (List Char) :=
  [w.address.asStr.toList, w.nickname.toList, n.ratio, n.maxTrade, n.maxExposure]

def TargetWallet.entry (w : TargetWallet) (n : NumberTexts) : List Char :=
  [':'].intercalate (w.parts n)

/-- The list that is written for these wallets. -/
def walletsText (ws : List TargetWallet) (ns : List NumberTexts) : String :=
  String.ofList ([','].intercalate (List.zipWith TargetWallet.entry ws ns))

/-- A wallet that an entry can stand for, and the texts of its numbers. -/
def TargetWallet.Spelt (w : TargetWallet) (n : NumberTexts) : Prop :=
  PartText w.nickname.toList ∧
  (∃ r, w = { TargetWallet.new w.address w.nickname with
      sizing := .fixedRatio r
      maxTradeUsd := w.maxTradeUsd
      maxExposureUsd := w.maxExposureUsd } ∧
    0 < r ∧ r ≤ 10 ∧ NumberText parseDecimal (1 / 4) r n.ratio) ∧
  NumberText parseDecimal 100 w.maxTradeUsd n.maxTrade ∧
  NumberText parseDecimal 1000 w.maxExposureUsd n.maxExposure

variable {parseDecimal}

theorem numberText_of_numberAt {raw entry : List Char} {what : String} {i : Nat}
    {d : Option Decimal} (default : Decimal) (listed : entry ∈ walletEntries raw)
    (read : numberAt parseDecimal entry what (walletParts entry) i = .ok d) :
    ∃ text, NumberText parseDecimal default (d.getD default) text := by
  unfold numberAt at read
  split at read
  next =>
    cases read
    exact ⟨[], .inl ⟨rfl, rfl⟩⟩
  next text at_ =>
    split at read
    next d parsed =>
      cases read
      refine ⟨text.toList, .inr ⟨partAt_plain listed at_, ?_⟩⟩
      rw [String.ofList_toList]
      exact parsed
    next => cases read

theorem nickname_plain {raw entry : List Char} (a : Address)
    (listed : entry ∈ walletEntries raw) :
    PartText ((partAt (walletParts entry) 1).getD a.short).toList := by
  cases at_ : partAt (walletParts entry) 1 with
  | none => exact a.short_plain
  | some text => exact partAt_plain listed at_

/-- What an entry is read as can be written as one. -/
theorem spelt_of_walletOf {raw entry : List Char} {a : Address} {w : TargetWallet}
    (listed : entry ∈ walletEntries raw) (read : walletOf parseDecimal entry a = .ok w) :
    ∃ n, w.Spelt parseDecimal n := by
  unfold walletOf at read
  obtain ⟨ratio, ratioRead, read⟩ := Fallible.bind_eq_ok read
  obtain ⟨sized, sizing, read⟩ := Fallible.bind_eq_ok read
  obtain ⟨maxTrade, tradeRead, read⟩ := Fallible.bind_eq_ok read
  obtain ⟨maxExposure, exposureRead, read⟩ := Fallible.bind_eq_ok read
  cases read
  obtain ⟨ratioText, ratioSpelt⟩ := numberText_of_numberAt (1 / 4) listed ratioRead
  obtain ⟨tradeText, tradeSpelt⟩ := numberText_of_numberAt 100 listed tradeRead
  obtain ⟨exposureText, exposureSpelt⟩ := numberText_of_numberAt 1000 listed exposureRead
  have named := nickname_plain a listed
  have shape : 0 < ratio.getD (1 / 4) ∧ ratio.getD (1 / 4) ≤ 10 ∧
      sized = { TargetWallet.new a ((partAt (walletParts entry) 1).getD a.short) with
        sizing := .fixedRatio (ratio.getD (1 / 4)) } := by
    cases ratio with
    | none =>
      cases sizing
      refine ⟨?_, ?_, rfl⟩
      · norm_num
      · norm_num
    | some r =>
      simp only [sizedBy] at sizing
      split at sizing
      next => cases sizing
      next inside =>
        cases sizing
        obtain ⟨positive, small⟩ := not_or.mp inside
        exact ⟨not_le.mp positive, not_lt.mp small, rfl⟩
  obtain ⟨positive, small, rfl⟩ := shape
  exact ⟨⟨ratioText, tradeText, exposureText⟩, named,
    ⟨_, rfl, positive, small, ratioSpelt⟩, tradeSpelt, exposureSpelt⟩

theorem NumberText.cases {default d : Decimal} {text : List Char}
    (spelt : NumberText parseDecimal default d text) :
    trim text = text ∧ ',' ∉ text ∧ ':' ∉ text := by
  rcases spelt with ⟨rfl, _⟩ | ⟨⟨_, plain⟩, _⟩
  · exact ⟨rfl, List.not_mem_nil, List.not_mem_nil⟩
  · exact plain

theorem TargetWallet.Spelt.plain {w : TargetWallet} {n : NumberTexts}
    (spelt : w.Spelt parseDecimal n) :
    ∀ part ∈ w.parts n, trim part = part ∧ ',' ∉ part ∧ ':' ∉ part := by
  obtain ⟨named, ⟨_, _, _, _, ratio⟩, trade, exposure⟩ := spelt
  intro part mem
  simp only [parts, List.mem_cons, List.not_mem_nil, or_false] at mem
  rcases mem with rfl | rfl | rfl | rfl | rfl
  · exact w.address.plain.2
  · exact named.2
  · exact ratio.cases
  · exact trade.cases
  · exact exposure.cases

theorem TargetWallet.walletParts_entry {w : TargetWallet} {n : NumberTexts}
    (spelt : w.Spelt parseDecimal n) : walletParts (w.entry n) = w.parts n := by
  unfold walletParts entry
  rw [List.splitOn_intercalate ':' (fun part mem => (spelt.plain part mem).2.2)
    (List.cons_ne_nil _ _)]
  exact (List.map_congr_left fun part mem => (spelt.plain part mem).1).trans (List.map_id _)

theorem NumberText.numberAt {default d : Decimal} {text : List Char} {i : Nat}
    {parts : List (List Char)} (spelt : NumberText parseDecimal default d text)
    (at_ : parts[i]? = some text) (entry : List Char) (what : String) :
    ∃ read, CopyTrading.numberAt parseDecimal entry what parts i = .ok read ∧
      read.getD default = d := by
  rcases spelt with ⟨rfl, rfl⟩ | ⟨⟨filled, _⟩, parsed⟩
  · have blank : partAt parts i = none := by
      unfold partAt
      rw [at_]
      rfl
    refine ⟨none, ?_, rfl⟩
    unfold CopyTrading.numberAt
    rw [blank]
  · have full : partAt parts i = some (String.ofList text) := by
      unfold partAt
      rw [at_, Option.filter_some_pos (by simpa using filled)]
      rfl
    refine ⟨some d, ?_, rfl⟩
    unfold CopyTrading.numberAt
    rw [full]
    simp only [parsed]

/-- An entry is read back as the wallet it was written for. -/
theorem TargetWallet.readEntry_entry {w : TargetWallet} {n : NumberTexts}
    (spelt : w.Spelt parseDecimal n) : readEntry parseDecimal (w.entry n) = .ok w := by
  have here : addressOf (w.parts n) = .ok w.address := by
    unfold addressOf parts
    simp only [List.headD_cons, String.ofList_toList, Address.new_asStr]
  have nickname : partAt (w.parts n) 1 = some w.nickname := by
    simp [partAt, parts, spelt.1.1]
  have cut := walletParts_entry spelt
  obtain ⟨named, ⟨r, shape, positive, small, ratio⟩, trade, exposure⟩ := spelt
  have second : (w.parts n)[2]? = some n.ratio := rfl
  have third : (w.parts n)[3]? = some n.maxTrade := rfl
  have fourth : (w.parts n)[4]? = some n.maxExposure := rfl
  obtain ⟨ratioRead, readRatio, ratioIs⟩ := ratio.numberAt second (w.entry n) "copy ratio"
  obtain ⟨tradeRead, readTrade, tradeIs⟩ := trade.numberAt third (w.entry n) "max trade"
  obtain ⟨exposureRead, readExposure, exposureIs⟩ :=
    exposure.numberAt fourth (w.entry n) "max exposure"
  have sized : sizedBy (w.entry n) (TargetWallet.new w.address w.nickname) ratioRead =
      .ok { TargetWallet.new w.address w.nickname with sizing := .fixedRatio r } := by
    cases ratioRead with
    | none =>
      cases ratioIs
      rfl
    | some read =>
      cases ratioIs
      exact if_neg (not_or.mpr ⟨not_le.mpr positive, not_lt.mpr small⟩)
  unfold readEntry walletOf
  rw [cut, here]
  simp only [nickname, Option.getD_some, readRatio, sized, readTrade, readExposure, bind,
    Except.bind, Except.ok.injEq]
  rw [shape]
  simp only [TargetWallet.new] at tradeIs exposureIs ⊢
  rw [tradeIs, exposureIs]

theorem TargetWallet.Spelt.entry_plain {w : TargetWallet} {n : NumberTexts}
    (spelt : w.Spelt parseDecimal n) :
    w.entry n ≠ [] ∧ trim (w.entry n) = w.entry n ∧ ',' ∉ w.entry n := by
  obtain ⟨body, address, _⟩ := isHexText_cases w.address.valid
  have first : ∃ rest, w.entry n = '0' :: rest := by
    unfold entry parts
    rw [address, List.intercalate_cons_cons]
    exact ⟨_, rfl⟩
  have last : ∃ front, w.entry n = front ++ ':' :: n.maxExposure := by
    unfold entry parts
    refine ⟨w.address.asStr.toList ++ ':' :: w.nickname.toList ++ ':' :: n.ratio ++
      ':' :: n.maxTrade, ?_⟩
    simp [List.intercalate_cons_cons]
  have parts := spelt.plain
  obtain ⟨rest, first⟩ := first
  obtain ⟨front, last⟩ := last
  refine ⟨?_, trim_eq_self ?_ ?_, ?_⟩
  · rw [first]
    exact List.cons_ne_nil _ _
  · intro c head
    rw [first] at head
    cases head
    decide
  · intro c end_
    rw [last, List.getLast?_append, List.getLast?_cons] at end_
    cases exposure : n.maxExposure.getLast? with
    | none =>
      rw [exposure] at end_
      cases end_
      decide
    | some d =>
      rw [exposure] at end_
      cases end_
      have trimmed := (parts n.maxExposure (by simp [TargetWallet.parts])).1
      rw [← trimmed] at exposure
      exact last_of_trim exposure
  · intro mem
    obtain ⟨part, listed, held⟩ : ∃ part ∈ w.parts n, ',' ∈ part := by
      simpa [entry, TargetWallet.parts, List.intercalate_cons_cons] using mem
    exact (parts part listed).2.1 held

theorem walletOf_address {entry : List Char} {a : Address} {w : TargetWallet}
    (read : walletOf parseDecimal entry a = .ok w) : w.address = a := by
  obtain ⟨ratio, _, read⟩ := Fallible.bind_eq_ok read
  obtain ⟨sized, sizing, read⟩ := Fallible.bind_eq_ok read
  obtain ⟨_, _, read⟩ := Fallible.bind_eq_ok read
  obtain ⟨_, _, read⟩ := Fallible.bind_eq_ok read
  cases read
  cases ratio with
  | none =>
    cases sizing
    rfl
  | some r =>
    simp only [sizedBy] at sizing
    split at sizing
    next => cases sizing
    next =>
      cases sizing
      rfl

/-- What a list of entries is read as: each entry by itself, no address twice. -/
theorem parseEntries_eq_ok {entries : List (List Char)} {seen : List Address}
    {ws : List TargetWallet} :
    parseEntries parseDecimal seen entries = .ok ws ↔
      List.Forall₂ (fun entry w => readEntry parseDecimal entry = .ok w) entries ws ∧
      (ws.map fun w => w.address).Nodup ∧ ∀ w ∈ ws, w.address ∉ seen := by
  induction entries generalizing seen ws with
  | nil =>
    constructor
    · intro read
      cases read
      exact ⟨.nil, List.nodup_nil, List.forall_mem_nil _⟩
    · rintro ⟨read, _⟩
      cases read
      rfl
  | cons entry rest ih =>
    constructor
    · intro read
      unfold parseEntries at read
      obtain ⟨a, here, read⟩ := Fallible.bind_eq_ok read
      split at read
      next => cases read
      next fresh =>
        obtain ⟨w, this, read⟩ := Fallible.bind_eq_ok read
        obtain ⟨later, parsed, read⟩ := Fallible.bind_eq_ok read
        cases read
        obtain ⟨each, distinct, unseen⟩ := ih.mp parsed
        have own := walletOf_address this
        refine ⟨.cons ?_ each, List.nodup_cons.mpr ⟨?_, distinct⟩,
          List.forall_mem_cons.mpr ⟨?_, ?_⟩⟩
        · unfold readEntry
          rw [here]
          exact this
        · intro mem
          obtain ⟨other, listed, same⟩ := List.mem_map.mp mem
          refine unseen other listed ?_
          rw [show other.address = a from same.trans own]
          exact List.mem_cons_self
        · rw [own]
          exact fresh
        · intro other listed mem
          exact unseen other listed (List.mem_cons_of_mem _ mem)
    · rintro ⟨read, distinct, unseen⟩
      cases read with
      | @cons _ w _ ws this each =>
        obtain ⟨a, here, this⟩ := Fallible.bind_eq_ok this
        have own := walletOf_address this
        obtain ⟨first, distinct⟩ := List.nodup_cons.mp distinct
        obtain ⟨fresh, unseen⟩ := List.forall_mem_cons.mp unseen
        rw [own] at fresh
        have later : parseEntries parseDecimal (a :: seen) rest = .ok ws := by
          refine ih.mpr ⟨each, distinct, ?_⟩
          intro other listed mem
          rcases List.mem_cons.mp mem with same | mem
          · exact first (List.mem_map.mpr ⟨other, listed, same.trans own.symm⟩)
          · exact unseen other listed mem
        unfold parseEntries
        simp only [here, fresh, this, later, bind, Except.bind, if_false]

theorem spelt_of_read {raw : List Char} {entries : List (List Char)} {ws : List TargetWallet}
    (listed : ∀ entry ∈ entries, entry ∈ walletEntries raw)
    (each : List.Forall₂ (fun entry w => readEntry parseDecimal entry = .ok w) entries ws) :
    ∃ ns, List.Forall₂ (TargetWallet.Spelt parseDecimal) ws ns := by
  induction each with
  | nil => exact ⟨[], .nil⟩
  | cons read _ ih =>
    obtain ⟨here, listed⟩ := List.forall_mem_cons.mp listed
    obtain ⟨a, _, read⟩ := Fallible.bind_eq_ok read
    obtain ⟨n, spelt⟩ := spelt_of_walletOf here read
    obtain ⟨ns, rest⟩ := ih listed
    exact ⟨n :: ns, .cons spelt rest⟩

theorem read_of_spelt {ws : List TargetWallet} {ns : List NumberTexts}
    (spelt : List.Forall₂ (TargetWallet.Spelt parseDecimal) ws ns) :
    List.Forall₂ (fun entry w => readEntry parseDecimal entry = .ok w)
      (List.zipWith TargetWallet.entry ws ns) ws ∧
    ∀ entry ∈ List.zipWith TargetWallet.entry ws ns,
      entry ≠ [] ∧ trim entry = entry ∧ ',' ∉ entry := by
  induction spelt with
  | nil => exact ⟨.nil, List.forall_mem_nil _⟩
  | cons here _ ih =>
    obtain ⟨each, plain⟩ := ih
    exact ⟨.cons (TargetWallet.readEntry_entry here) each,
      List.forall_mem_cons.mpr ⟨here.entry_plain, plain⟩⟩

theorem walletEntries_intercalate {entries : List (List Char)}
    (plain : ∀ entry ∈ entries, entry ≠ [] ∧ trim entry = entry ∧ ',' ∉ entry) :
    walletEntries ([','].intercalate entries) = entries := by
  by_cases none : entries = []
  · rw [none]
    rfl
  · unfold walletEntries
    rw [List.splitOn_intercalate ',' (fun entry mem => (plain entry mem).2.2) none,
      List.map_congr_left fun entry mem => (plain entry mem).2.1, List.map_id']
    refine List.filter_eq_self.mpr ?_
    intro entry mem
    exact decide_eq_true (plain entry mem).1

variable (parseDecimal)

/-- `TARGET_WALLETS` is read entry by entry, each by itself and in order, and no address is taken
twice. What is accepted can be written as a list again, and a list that is written is read back as
the wallets it was written for, their numbers left blank or in any text that is read so. -/
theorem parseTargetWallets_round_trip :
    (∀ raw ws, parseTargetWallets parseDecimal raw = .ok ws ↔
      List.Forall₂ (fun entry w => readEntry parseDecimal entry = .ok w)
        (walletEntries raw.toList) ws ∧ (ws.map fun w => w.address).Nodup) ∧
    (∀ raw ws, parseTargetWallets parseDecimal raw = .ok ws →
      ∃ ns, List.Forall₂ (TargetWallet.Spelt parseDecimal) ws ns) ∧
    ∀ ws ns, List.Forall₂ (TargetWallet.Spelt parseDecimal) ws ns →
      (ws.map fun w => w.address).Nodup →
      parseTargetWallets parseDecimal (walletsText ws ns) = .ok ws := by
  have reads : ∀ raw ws, parseTargetWallets parseDecimal raw = .ok ws ↔
      List.Forall₂ (fun entry w => readEntry parseDecimal entry = .ok w)
        (walletEntries raw.toList) ws ∧ (ws.map fun w => w.address).Nodup := by
    intro raw ws
    unfold parseTargetWallets
    rw [parseEntries_eq_ok]
    simp
  refine ⟨reads, ?_, ?_⟩
  · intro raw ws parsed
    obtain ⟨each, _⟩ := (reads raw ws).mp parsed
    exact spelt_of_read (fun _ mem => mem) each
  · intro ws ns spelt distinct
    obtain ⟨each, plain⟩ := read_of_spelt spelt
    refine (reads _ ws).mpr ⟨?_, distinct⟩
    unfold walletsText
    rw [String.toList_ofList, walletEntries_intercalate plain]
    exact each

end Listing

end CopyTrading
