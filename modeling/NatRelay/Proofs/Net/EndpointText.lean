import NatRelay.Net.EndpointText
import NatRelay.Proofs.Numeral

/-! Addresses as text. A reader takes an address from the front of a text, and from the text of an
address it takes that address: `v4_dotted` and `v6_v6Text` for IPs, `ofText?_text` for a whole
transport address. -/
namespace NatRelay.AddressReader
open Numeral

variable {base : Nat} {rest : List Char}

/-- Whether a character is a digit. -/
def isDigit (base : Nat) (c : Char) : Bool := (digit? base c).isSome

theorem digit?_digitChar (hbase : base ≤ 16) {d : Nat} (h : d < base) :
    digit? base (Nat.digitChar d) = some d := by
  have hall : ∀ d < 16, digit? 16 (Nat.digitChar d) = some d := by decide
  have hd := hall d (by omega)
  rw [digit?, Option.filter_eq_some_iff] at hd ⊢
  exact ⟨hd.1, decide_eq_true h⟩

theorem isDigit_of_mem_toDigits (hbase : 1 < base) (hbase' : base ≤ 16) {n : Nat} {c : Char}
    (h : c ∈ Nat.toDigits base n) : isDigit base c := by
  obtain ⟨d, hd, rfl⟩ := mem_toDigits hbase h
  rw [isDigit, digit?_digitChar hbase' hd]
  rfl

/-- The digits of a number are taken as the number. -/
theorem number_toDigits (hbase : 1 < base) (hbase' : base ≤ 16) {n bound : Nat} (hn : n < bound)
    (hrest : Stops (isDigit base) rest) :
    number base bound (Nat.toDigits base n ++ rest) = some (n, rest) := by
  have hdigits : (Nat.toDigits base n ++ rest).takeWhile (fun c => (digit? base c).isSome) =
      Nat.toDigits base n :=
    takeWhile_front (fun c hc => isDigit_of_mem_toDigits hbase hbase' hc) hrest
  have hvalue := value_toDigits hbase (fun d hd => digit?_digitChar hbase' hd) n
  simp [number, hdigits, hvalue, hn, Nat.toDigits_ne_nil]

/-- No digit, no number. -/
theorem number_of_stops {bound : Nat} (h : Stops (isDigit base) rest) :
    number base bound rest = none := by
  have hdigits : rest.takeWhile (fun c => (digit? base c).isSome) = [] := takeWhile_of_stops h
  simp [number, hdigits]

theorem octet_toDigits {n : Nat} (hn : n < 256) (hrest : Stops (isDigit 10) rest) :
    octet (Nat.toDigits 10 n ++ rest) = some (n, rest) := by
  have hdigits : (Nat.toDigits 10 n ++ rest).takeWhile (fun c => (digit? 10 c).isSome) =
      Nat.toDigits 10 n :=
    takeWhile_front (fun c hc => isDigit_of_mem_toDigits (by decide) (by decide) hc) hrest
  have hshort : (Nat.toDigits 10 n).length ≤ 3 :=
    (Nat.length_toDigits_le_iff (by decide) (by decide)).2 (Nat.lt_trans hn (by decide))
  have hlead : 1 < (Nat.toDigits 10 n).length → (Nat.toDigits 10 n).head? ≠ some '0' :=
    head?_toDigits (by decide)
  rw [octet, hdigits, if_neg, number_toDigits (by decide) (by decide) hn hrest]
  rintro (hlong | ⟨hlong, hzero⟩)
  · exact absurd hshort (Nat.not_le.2 hlong)
  · exact hlead hlong hzero

theorem group_toDigits {n : Nat} (hn : n < 65536) (hrest : Stops (isDigit 16) rest) :
    group (Nat.toDigits 16 n ++ rest) = some (n, rest) := by
  have hdigits : (Nat.toDigits 16 n ++ rest).takeWhile (fun c => (digit? 16 c).isSome) =
      Nat.toDigits 16 n :=
    takeWhile_front (fun c hc => isDigit_of_mem_toDigits (by decide) (by decide) hc) hrest
  have hshort : (Nat.toDigits 16 n).length ≤ 4 :=
    (Nat.length_toDigits_le_iff (by decide) (by decide)).2 (Nat.lt_of_lt_of_le hn (by decide))
  rw [group, hdigits, if_neg (Nat.not_lt.2 hshort),
    number_toDigits (by decide) (by decide) hn hrest]

theorem group_of_stops (h : Stops (isDigit 16) rest) : group rest = none := by
  rw [group, number_of_stops h]
  exact ite_self _

/-! ### IPv4 -/

theorem stops_point : Stops (isDigit 10) ('.' :: rest) := stops_cons (by decide)

/-- Dotted decimals are taken as the address. -/
theorem v4_dotted (a : BitVec 32) (hrest : Stops (isDigit 10) rest) :
    v4 ((Ip.dotted a).toList ++ rest) = some (a, rest) := by
  have hvalue : value 256 (digits 256 4 a.toNat) = a.toNat := value_digits a.isLt
  have hlt : ∀ d ∈ digits 256 4 a.toNat, d < 256 := fun d hd => lt_of_mem_digits (by decide) hd
  obtain ⟨w, x, y, z, hdigits⟩ : ∃ w x y z, digits 256 4 a.toNat = [w, x, y, z] :=
    ⟨_, _, _, _, rfl⟩
  rw [hdigits] at hlt hvalue
  simp only [List.mem_cons, List.not_mem_nil, or_false, forall_eq_or_imp, forall_eq] at hlt
  obtain ⟨hw, hx, hy, hz⟩ := hlt
  have htext : (Ip.dotted a).toList ++ rest = Nat.toDigits 10 w ++ '.' :: (Nat.toDigits 10 x ++
      '.' :: (Nat.toDigits 10 y ++ '.' :: (Nat.toDigits 10 z ++ rest))) := by
    simp [Ip.dotted, hdigits]
  rw [htext, v4]
  simp only [octet_toDigits hw stops_point, octet_toDigits hx stops_point,
    octet_toDigits hy stops_point, octet_toDigits hz hrest, mark, if_true, Option.bind_eq_bind,
    Option.bind_some, Option.pure_def, hvalue, BitVec.ofNat_toNat, BitVec.setWidth_eq]

theorem octet_of_stops (h : Stops (isDigit 10) rest) : octet rest = none := by
  have hdigits : rest.takeWhile (fun c => (digit? 10 c).isSome) = [] := takeWhile_of_stops h
  rw [octet, hdigits, number_of_stops h]
  exact ite_self _

theorem v4_of_stops (h : Stops (isDigit 10) rest) : v4 rest = none := by
  rw [v4, octet_of_stops h]
  rfl

/-- What is read as an octet leaves what comes behind the digits. -/
theorem octet_rest {cs : List Char} {n : Nat} (h : octet cs = some (n, rest)) :
    rest = cs.dropWhile (isDigit 10) := by
  have hdrop : cs.drop (cs.takeWhile fun c => (digit? 10 c).isSome).length =
      cs.dropWhile (isDigit 10) :=
    (congrArg (List.drop _) List.takeWhile_append_dropWhile.symm).trans List.drop_left
  rw [octet, number, hdrop] at h
  split at h
  · cases h
  split at h
  · cases h
  · exact ((Prod.mk.inj (Option.some.inj h)).2).symm

/-- No point behind the digits, no IPv4 address. -/
theorem v4_of_dropWhile {cs : List Char} (h : (cs.dropWhile (isDigit 10)).head? ≠ some '.') :
    v4 cs = none := by
  cases hoctet : octet cs with
  | none => rw [v4, hoctet]; rfl
  | some result =>
    obtain ⟨n, rest⟩ := result
    obtain rfl := octet_rest hoctet
    have hmark : mark '.' (cs.dropWhile (isDigit 10)) = none := by
      cases hcs : cs.dropWhile (isDigit 10) with
      | nil => rfl
      | cons c rest =>
        rw [hcs] at h
        rw [mark, if_neg (by simpa using h)]
    rw [v4, hoctet]
    simp only [Option.bind_eq_bind, Option.bind_some, hmark, Option.bind_none]

theorem stops_decimal (h : Stops (isDigit 16) rest) : Stops (isDigit 10) rest := by
  intro c hc
  rw [Bool.eq_false_iff, isDigit, ne_eq, Option.isSome_iff_exists]
  rintro ⟨d, hd⟩
  rw [digit?, Option.filter_eq_some_iff] at hd
  have hhex : digit? 16 c = some d := by
    rw [digit?, Option.filter_eq_some_iff]
    exact ⟨hd.1, decide_eq_true (Nat.lt_trans (of_decide_eq_true hd.2) (by decide))⟩
  exact absurd (h c hc) (by rw [isDigit, hhex]; exact Bool.noConfusion)

/-- A group in hexadecimal that no point follows is no IPv4 address. -/
theorem v4_group {n : Nat} (hpoint : rest.head? ≠ some '.') (hrest : Stops (isDigit 16) rest) :
    v4 (Nat.toDigits 16 n ++ rest) = none := by
  apply v4_of_dropWhile
  have hdigits : ∀ c ∈ Nat.toDigits 16 n, isDigit 16 c :=
    fun c hc => isDigit_of_mem_toDigits (by decide) (by decide) hc
  generalize Nat.toDigits 16 n = cs at hdigits ⊢
  induction cs with
  | nil =>
    rw [List.nil_append, ← List.nil_append rest, dropWhile_front (by simp) (stops_decimal hrest)]
    exact hpoint
  | cons c cs ih =>
    rw [List.cons_append, List.dropWhile_cons]
    split
    · exact ih fun d hd => hdigits d (List.mem_cons_of_mem c hd)
    · intro hc
      obtain rfl := Option.some.inj hc
      exact absurd (hdigits '.' List.mem_cons_self) (by decide)

/-! ### IPv6 -/

/-- Groups in hexadecimal with colons between them, and one in front unless they come first. -/
def groupChars (first : Bool) : List Nat → List Char
  | [] => []
  | g :: gs => (if first then [] else [':']) ++ Nat.toDigits 16 g ++ groupChars false gs

theorem joinGroups_toList (gs : List Nat) : (Ip.joinGroups gs).toList = groupChars true gs := by
  have htail (g : Nat) (gs : List Nat) : (Ip.joinGroups (g :: gs)).toList =
      Nat.toDigits 16 g ++ groupChars false gs := by
    induction gs generalizing g with
    | nil => simp [Ip.joinGroups, Ip.hexGroup, groupChars]
    | cons g' gs ih =>
      have hmore : Ip.joinGroups (g :: g' :: gs) =
          Ip.hexGroup g ++ ":" ++ Ip.joinGroups (g' :: gs) :=
        String.intercalate_cons_cons
      rw [hmore, String.toList_append, String.toList_append, ih, Ip.hexGroup, String.toList_ofList]
      simp [groupChars]
  cases gs with
  | nil => rfl
  | cons g gs => rw [htail]; rfl

/-- Where no group comes, none is taken. -/
theorem groups_of_stops {first : Bool} {slots : Nat}
    (h : ∀ cs, separator first rest = some cs → Stops (isDigit 16) cs) :
    groups first slots rest = ([], false, rest) := by
  have hnone : (separator first rest).bind v4 = none ∧
      (separator first rest).bind group = none := by
    cases hcs : separator first rest with
    | none => exact ⟨rfl, rfl⟩
    | some cs => exact ⟨v4_of_stops (stops_decimal (h cs hcs)), group_of_stops (h cs hcs)⟩
  cases slots with
  | zero => rfl
  | succ slots => simp [groups, hnone]

theorem separator_cons (first : Bool) (cs : List Char) :
    separator first ((if first then [] else [':']) ++ cs) = some cs := by
  cases first <;> rfl

/-- A written group is taken and fills a place. -/
theorem groups_cons {g : Nat} (hg : g < 65536) (first : Bool) (slots : Nat) (rest : List Char)
    (hpoint : rest.head? ≠ some '.') (hrest : Stops (isDigit 16) rest) :
    groups first (slots + 1) ((if first then [] else [':']) ++ (Nat.toDigits 16 g ++ rest)) =
      (g :: (groups false slots rest).1, (groups false slots rest).2) := by
  rw [groups, separator_cons, Option.bind_some, v4_group hpoint hrest, ite_self, Option.bind_some,
    group_toDigits hg hrest]

/-- Dotted decimals are taken for two groups, with which the address ends. -/
theorem groups_dotted (a : BitVec 32) (first : Bool) (slots : Nat)
    (hrest : Stops (isDigit 16) rest) :
    groups first (slots + 2) ((if first then [] else [':']) ++ ((Ip.dotted a).toList ++ rest)) =
      ([a.toNat / 65536, a.toNat % 65536], true, rest) := by
  rw [groups, separator_cons, if_neg (Nat.succ_ne_zero slots), Option.bind_some,
    v4_dotted a (stops_decimal hrest)]

/-- Written groups are taken one by one; the places they fill are gone for what follows. -/
theorem groups_groupChars {gs : List Nat} (hgs : ∀ g ∈ gs, g < 65536) (first : Bool)
    (slots : Nat) (rest : List Char) (hpoint : rest.head? ≠ some '.')
    (hrest : Stops (isDigit 16) rest) :
    groups first (gs.length + slots) (groupChars first gs ++ rest) =
      (gs ++ (groups (first && gs.isEmpty) slots rest).1,
        (groups (first && gs.isEmpty) slots rest).2) := by
  induction gs generalizing first with
  | nil => simp [groupChars]
  | cons g gs ih =>
    have hg := hgs g List.mem_cons_self
    have hmore := ih (fun g' hg' => hgs g' (List.mem_cons_of_mem g hg')) false
    have hbehind : (groupChars false gs ++ rest).head? ≠ some '.' ∧
        Stops (isDigit 16) (groupChars false gs ++ rest) := by
      cases gs with
      | nil => exact ⟨hpoint, hrest⟩
      | cons g' gs => exact ⟨by simp [groupChars], stops_cons (by decide)⟩
    rw [groupChars, List.append_assoc, List.append_assoc, List.length_cons, Nat.succ_add,
      groups_cons hg first _ _ hbehind.1 hbehind.2, hmore]
    simp

theorem zeroRun_split (gs : List Nat) :
    gs = List.replicate (Ip.zeroRun gs) 0 ++ gs.drop (Ip.zeroRun gs) := by
  have hzeros : gs.takeWhile (· == 0) = List.replicate (Ip.zeroRun gs) 0 := by
    rw [List.eq_replicate_iff]
    exact ⟨rfl, fun g hg => by simpa using List.all_eq_true.1 List.all_takeWhile g hg⟩
  rw [← hzeros, Ip.zeroRun]
  exact (List.prefix_iff_eq_append.1 (List.takeWhile_prefix _)).symm

/-- The longest run of zeros is where it is said to be. -/
theorem longestRun_split (gs : List Nat) :
    gs = gs.take (Ip.longestRun gs).1 ++ List.replicate (Ip.longestRun gs).2 0 ++
      gs.drop ((Ip.longestRun gs).1 + (Ip.longestRun gs).2) := by
  induction gs with
  | nil => rfl
  | cons g gs ih =>
    rcases hrun : Ip.longestRun gs with ⟨start, length⟩
    rw [hrun] at ih
    simp only [Ip.longestRun, hrun]
    split
    · simpa using zeroRun_split (g :: gs)
    · simpa [Nat.add_right_comm] using ih

/-- What may stand behind an IPv6 address in brackets: the bracket or a zone. -/
def Closes (rest : List Char) : Prop := ∃ c tail, rest = c :: tail ∧ (c = ']' ∨ c = '%')

theorem Closes.stops (h : Closes rest) : rest.head? ≠ some '.' ∧ Stops (isDigit 16) rest := by
  obtain ⟨c, tail, rfl, rfl | rfl⟩ := h
  · exact ⟨by simp, stops_cons (by decide)⟩
  · exact ⟨by simp, stops_cons (by decide)⟩

/-- No group comes behind the address. -/
theorem Closes.groups (h : Closes rest) (first : Bool) (slots : Nat) :
    groups first slots rest = ([], false, rest) := by
  refine groups_of_stops fun cs hcs => ?_
  obtain ⟨c, tail, rfl, hc⟩ := id h
  cases first with
  | true => exact Option.some.inj hcs ▸ h.stops.2
  | false => rcases hc with rfl | rfl <;> cases hcs

/-- No group comes in front of two colons. -/
theorem groups_colons (first : Bool) (slots : Nat) :
    groups first slots (':' :: ':' :: rest) = ([], false, ':' :: ':' :: rest) := by
  refine groups_of_stops fun cs hcs => ?_
  cases first with
  | true => exact Option.some.inj hcs ▸ stops_cons (by decide)
  | false =>
    obtain rfl : ':' :: rest = cs := Option.some.inj hcs
    exact stops_cons (by decide)

theorem stops_colon : Stops (isDigit 16) (':' :: rest) := stops_cons (by decide)

/-- The eight groups of an address, and what they denote. -/
theorem groups_spec (a : BitVec 128) : (∀ g ∈ Ip.groups a, g < 65536) ∧
    (Ip.groups a).length = 8 ∧ BitVec.ofNat 128 (value 65536 (Ip.groups a)) = a := by
  have hvalue : value 65536 (digits 65536 8 a.toNat) = a.toNat := value_digits a.isLt
  refine ⟨fun g hg => lt_of_mem_digits (by decide) hg, length_digits .., ?_⟩
  rw [Ip.groups, hvalue, BitVec.ofNat_toNat, BitVec.setWidth_eq]

/-- Eight groups are taken as the address. -/
theorem v6_full (a : BitVec 128) (hrest : Closes rest) :
    v6 (groupChars true (Ip.groups a) ++ rest) = some (a, rest) := by
  obtain ⟨hlt, hlength, hvalue⟩ := groups_spec a
  have hread := groups_groupChars hlt true 0 rest hrest.stops.1 hrest.stops.2
  rw [hlength, hrest.groups] at hread
  simp [v6, hread, hlength, hvalue]

/-- Two colons are taken for the zeros that they stand for. -/
theorem v6_short {a : BitVec 128} {front back : List Nat} {zeros : Nat}
    (hgroups : Ip.groups a = front ++ List.replicate zeros 0 ++ back) (hzeros : 2 ≤ zeros)
    (hrest : Closes rest) :
    v6 (groupChars true front ++ ':' :: ':' :: (groupChars true back ++ rest)) =
      some (a, rest) := by
  obtain ⟨hlt, hlength, hvalue⟩ := groups_spec a
  rw [hgroups] at hlt hlength hvalue
  simp only [List.length_append, List.length_replicate] at hlength
  have hfront := groups_groupChars
    (fun g hg => hlt g (List.mem_append_left _ (List.mem_append_left _ hg))) true
    (8 - front.length) (':' :: ':' :: (groupChars true back ++ rest)) (by simp) stops_colon
  have hback := groups_groupChars (fun g hg => hlt g (List.mem_append_right _ hg)) true
    (7 - front.length - back.length) rest hrest.stops.1 hrest.stops.2
  rw [groups_colons, Nat.add_sub_cancel' (by omega)] at hfront
  rw [hrest.groups, Nat.add_sub_cancel' (by omega)] at hback
  have hmissing : 8 - front.length - back.length = zeros := by omega
  have hshort : front.length ≠ 8 := by omega
  simp only [v6, hfront, List.append_nil, hshort, if_false, Bool.false_eq_true, mark, if_true,
    Option.bind_eq_bind, Option.bind_some, hback, hmissing, hvalue, Option.pure_def]

/-- An address mapped from IPv4 is taken with its dotted decimals. -/
theorem v6_mapped {a : BitVec 128} (h : a.toNat >>> 32 = 0xFFFF) (hrest : Closes rest) :
    v6 ("::ffff:".toList ++ ((Ip.dotted (a.truncate 32)).toList ++ rest)) = some (a, rest) := by
  have htext : "::ffff:".toList ++ ((Ip.dotted (a.truncate 32)).toList ++ rest) = ':' :: ':' ::
      (Nat.toDigits 16 0xFFFF ++ ':' :: ((Ip.dotted (a.truncate 32)).toList ++ rest)) := rfl
  have hffff := groups_cons (g := 0xFFFF) (by decide) true 6
    (':' :: ((Ip.dotted (a.truncate 32)).toList ++ rest)) (by simp) stops_colon
  have hdotted := groups_dotted (a.truncate 32) false 4 hrest.stops.2
  have hvalue : value 65536 (List.replicate 5 0 ++
      [0xFFFF, (a.truncate 32).toNat / 65536, (a.truncate 32).toNat % 65536]) = a.toNat := by
    rw [Nat.shiftRight_eq_div_pow] at h
    simp only [value, BitVec.truncate_eq_setWidth, BitVec.toNat_setWidth, List.reduceReplicate,
      List.cons_append, List.nil_append, List.foldl_cons, List.foldl_nil]
    omega
  rw [if_pos rfl, List.nil_append] at hffff
  rw [if_neg Bool.false_ne_true, List.singleton_append] at hdotted
  rw [hdotted] at hffff
  rw [htext, v6, groups_colons]
  simp only [List.length_nil, Nat.reduceEqDiff, if_false, Bool.false_eq_true, mark, if_true,
    Option.bind_eq_bind, Option.bind_some, Nat.reduceSub, hffff, List.length_cons, Nat.reduceAdd,
    List.nil_append, hvalue, Option.pure_def, BitVec.ofNat_toNat, BitVec.setWidth_eq]

/-- The text of an IPv6 address is taken as the address. -/
theorem v6_v6Text (a : BitVec 128) (hrest : Closes rest) :
    v6 ((Ip.v6Text a).toList ++ rest) = some (a, rest) := by
  rw [Ip.v6Text]
  split
  · rename_i hmapped
    rw [String.toList_append, List.append_assoc]
    exact v6_mapped hmapped hrest
  have hsplit := longestRun_split (Ip.groups a)
  rcases Ip.longestRun (Ip.groups a) with ⟨start, length⟩
  dsimp only
  split
  · rename_i hlength
    have hshort := v6_short hsplit hlength hrest
    simpa [joinGroups_toList] using hshort
  · rw [joinGroups_toList]
    exact v6_full a hrest

/-! ### Ports and zones -/

theorem port_toDigits (p : UInt16) :
    port (':' :: Nat.toDigits 10 p.toNat) = some (p, []) := by
  have hread : number 10 65536 (Nat.toDigits 10 p.toNat ++ []) = some (p.toNat, []) :=
    number_toDigits (by decide) (by decide) p.toNat_lt stops_nil
  rw [List.append_nil] at hread
  simp only [port, mark, if_true, Option.bind_eq_bind, Option.bind_some, Option.pure_def]
  exact (congrArg (Option.bind · _) hread).trans (by simp)

/-- The text of a zone, which is there unless the zone is zero. -/
theorem zone_text (z : UInt32) (tail : List Char) :
    zone ((if z = 0 then "" else s!"%{z.toNat}").toList ++ ']' :: tail) = (z, ']' :: tail) := by
  split
  · rename_i hz
    rw [hz]
    rfl
  · have htext : s!"%{z.toNat}".toList ++ ']' :: tail =
        '%' :: (Nat.toDigits 10 z.toNat ++ ']' :: tail) := by
      simp [toString]
    have hread : number 10 0x100000000 (Nat.toDigits 10 z.toNat ++ ']' :: tail) =
        some (z.toNat, ']' :: tail) :=
      number_toDigits (by decide) (by decide) z.toNat_lt (stops_cons (by decide))
    rw [htext, zone, mark, if_pos rfl, Option.bind_some, hread]
    exact Prod.ext z.ofNat_toNat rfl

end NatRelay.AddressReader

namespace NatRelay.Endpoint
open AddressReader Numeral

theorem toList_text_v4 (a : BitVec 32) (p : UInt16) :
    (text (v4 a p)).toList = (Ip.dotted a).toList ++ ':' :: Nat.toDigits 10 p.toNat := by
  simp [text, toString]

theorem toList_text_v6 (a : BitVec 128) (p : UInt16) (flow z : UInt32) :
    (text (v6 a p flow z)).toList = '[' :: ((Ip.v6Text a).toList ++
      ((if z = 0 then "" else s!"%{z.toNat}").toList ++
        ']' :: ':' :: Nat.toDigits 10 p.toNat)) := by
  simp [text, toString]

/-- The text of a transport address without a flow label is read as the address. -/
theorem ofText?_text {e : Endpoint} (h : e.flow = 0) : ofText? e.text = some e := by
  cases e with
  | v4 a p =>
    have hread : endpoint4 (text (v4 a p)).toList = some (v4 a p, []) := by
      rw [toList_text_v4, endpoint4, v4_dotted a (stops_cons (by decide))]
      simp only [Option.bind_eq_bind, Option.bind_some, port_toDigits, Option.pure_def]
    rw [ofText?, hread]
    rfl
  | v6 a p flow z =>
    obtain rfl : flow = 0 := h
    have hcloses : Closes ((if z = 0 then "" else s!"%{z.toNat}").toList ++
        ']' :: ':' :: Nat.toDigits 10 p.toNat) := by
      split
      · exact ⟨']', _, rfl, .inl rfl⟩
      · exact ⟨'%', _, by simp [toString]; rfl, .inr rfl⟩
    have hread : endpoint6 (text (v6 a p 0 z)).toList = some (v6 a p 0 z, []) := by
      rw [toList_text_v6, endpoint6]
      simp only [mark, if_true, Option.bind_eq_bind, Option.bind_some, v6_v6Text a hcloses,
        zone_text, port_toDigits, Option.pure_def]
    have hnot : endpoint4 (text (v6 a p 0 z)).toList = none := by
      rw [toList_text_v6, endpoint4, v4_of_stops (stops_cons (by decide))]
      rfl
    rw [ofText?, hnot, hread]
    rfl

end NatRelay.Endpoint
