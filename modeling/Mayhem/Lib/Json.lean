import Mathlib.Data.List.Basic

/-!
This module contains JSON values and the compact text of a value, which is unambiguous: no two values have the
same text.
-/

inductive Json where
  | null
  | bool (b : Bool)
  | nat (n : Nat)
  | str (s : String)
  | arr (items : List Json)
  | obj (fields : List (String × Json))

namespace Json

def hexDigit (n : Nat) : Char := Char.ofNat (if n < 10 then 48 + n else 87 + n)

def escape (c : Char) : List Char :=
  if c = '"' then ['\\', '"']
  else if c = '\\' then ['\\', '\\']
  else if c = '\x08' then ['\\', 'b']
  else if c = '\x0c' then ['\\', 'f']
  else if c = '\n' then ['\\', 'n']
  else if c = '\r' then ['\\', 'r']
  else if c = '\t' then ['\\', 't']
  else if c.toNat < 32 then ['\\', 'u', '0', '0', hexDigit (c.toNat / 16), hexDigit (c.toNat % 16)]
  else [c]

def quote (s : String) : List Char := '"' :: (s.toList.flatMap escape ++ ['"'])

def listRest (close : Char) : List (List Char) → List Char
  | [] => [close]
  | part :: rest => ',' :: (part ++ listRest close rest)

def listText (close : Char) : List (List Char) → List Char
  | [] => [close]
  | part :: rest => part ++ listRest close rest

mutual

def text : Json → List Char
  | null => "null".toList
  | bool b => if b then "true".toList else "false".toList
  | nat n => Nat.toDigits 10 n
  | str s => quote s
  | arr items => '[' :: listText ']' (itemTexts items)
  | obj fields => '{' :: listText '}' (fieldTexts fields)

def itemTexts : List Json → List (List Char)
  | [] => []
  | item :: rest => item.text :: itemTexts rest

def fieldTexts : List (String × Json) → List (List Char)
  | [] => []
  | (name, value) :: rest => (quote name ++ ':' :: value.text) :: fieldTexts rest

end

def bytes (j : Json) : ByteArray := (String.ofList j.text).toUTF8

def fieldText (field : String × Json) : List Char := quote field.1 ++ ':' :: field.2.text

theorem itemTexts_eq (items : List Json) : itemTexts items = items.map text := by
  induction items with
  | nil => rfl
  | cons _ _ ih => rw [itemTexts, List.map_cons, ih]

theorem fieldTexts_eq (fields : List (String × Json)) : fieldTexts fields = fields.map fieldText := by
  induction fields with
  | nil => rfl
  | cons _ _ ih => rw [fieldTexts, List.map_cons, ih, fieldText]

theorem induct {P : Json → Prop} (hnull : P null) (hbool : ∀ b, P (bool b)) (hnat : ∀ n, P (nat n))
    (hstr : ∀ s, P (str s)) (harr : ∀ items, (∀ item ∈ items, P item) → P (arr items))
    (hobj : ∀ fields, (∀ field ∈ fields, P field.2) → P (obj fields)) : ∀ j, P j
  | null => hnull
  | bool b => hbool b
  | nat n => hnat n
  | str s => hstr s
  | arr items => harr items fun item _ => induct hnull hbool hnat hstr harr hobj item
  | obj fields => hobj fields fun field _ => induct hnull hbool hnat hstr harr hobj field.2
termination_by j => sizeOf j
decreasing_by
  . have hmem := List.sizeOf_lt_of_mem ‹item ∈ items›
    simp only [arr.sizeOf_spec]
    omega
  . have hmem := List.sizeOf_lt_of_mem ‹field ∈ fields›
    have hvalue : sizeOf field.2 < sizeOf field := by
      cases field
      simp only [Prod.mk.sizeOf_spec]
      omega
    simp only [obj.sizeOf_spec]
    omega

def Stops (r : List Char) : Prop := ∀ c ∈ r.head?, c.isDigit = false

variable {r : List Char}

theorem takeWhile_toDigits (n : Nat) (hr : Stops r) :
    (Nat.toDigits 10 n ++ r).takeWhile Char.isDigit = Nat.toDigits 10 n := by
  have hrest : r.takeWhile Char.isDigit = [] := by
    cases r with
    | nil => rfl
    | cons c r => rw [List.takeWhile_cons_of_neg (by simpa using hr c rfl)]
  rw [List.takeWhile_append_of_pos fun c hc => Nat.isDigit_of_mem_toDigits (by omega) (by omega) hc, hrest,
    List.append_nil]

variable {r' : List Char}

theorem toDigits_unambiguous {m n : Nat} (hr : Stops r) (hr' : Stops r')
    (h : Nat.toDigits 10 m ++ r = Nat.toDigits 10 n ++ r') : m = n ∧ r = r' := by
  have hdigits : Nat.toDigits 10 m = Nat.toDigits 10 n := by
    rw [← takeWhile_toDigits m hr, h, takeWhile_toDigits n hr']
  refine ⟨?_, ?_⟩
  . have hvalue := congrArg (fun digits => Nat.ofDigitChars 10 digits 0) hdigits
    simpa only [Nat.ofDigitChars_toDigits (show 1 < 10 by omega) (show 10 ≤ 10 by omega)] using hvalue
  . rw [hdigits] at h
    exact List.append_cancel_left h

def specials : List Char := '"' :: '\\' :: (List.range 32).map Char.ofNat

variable {c : Char}

theorem mem_specials (h : c = '"' ∨ c = '\\' ∨ c.toNat < 32) : c ∈ specials := by
  rcases h with rfl | rfl | h
  . exact List.mem_cons_self
  . exact List.mem_cons_of_mem _ List.mem_cons_self
  . refine List.mem_cons_of_mem _ (List.mem_cons_of_mem _ (List.mem_map.mpr ⟨c.toNat, ?_, ?_⟩))
    . exact List.mem_range.mpr h
    . exact Char.ofNat_toNat c

-- decided over the list, not over all characters
theorem escape_of_special (hc : c ∈ specials) : (escape c).head? = some '\\' := by
  have hall : specials.all (fun c => (escape c).head? = some '\\') = true := by decide +kernel
  simpa using List.all_eq_true.mp hall c hc

theorem escape_special_inj {d : Char} (hc : c ∈ specials) (hd : d ∈ specials) (h : escape c <+: escape d) :
    c = d := by
  have hall : specials.all (fun c => specials.all fun d => escape c <+: escape d → c = d) =
    true := by decide +kernel
  have hrow : specials.all (fun d => escape c <+: escape d → c = d) = true := List.all_eq_true.mp hall c hc
  have hpair : escape c <+: escape d →
    c = d := by simpa only [decide_eq_true_eq] using List.all_eq_true.mp hrow d hd
  exact hpair h

theorem escape_of_plain (h : ¬ (c = '"' ∨ c = '\\' ∨ c.toNat < 32)) : escape c = [c] := by
  simp only [not_or] at h
  obtain ⟨hquote, hbackslash, hcontrol⟩ := h
  have hne (d : Char) (hd : d.toNat < 32) : c ≠ d := fun heq => hcontrol (heq ▸ hd)
  rw [escape, if_neg hquote, if_neg hbackslash, if_neg (hne _ (by decide)), if_neg (hne _ (by decide)),
    if_neg (hne _ (by decide)), if_neg (hne _ (by decide)), if_neg (hne _ (by decide)), if_neg hcontrol]

theorem escape_unambiguous {d : Char} (h : escape c ++ r = escape d ++ r') : c = d ∧ r = r' := by
  by_cases hc : c = '"' ∨ c = '\\' ∨ c.toNat < 32
  . by_cases hd : d = '"' ∨ d = '\\' ∨ d.toNat < 32
    . have hsame : c = d := by
        rcases List.prefix_or_prefix_of_prefix (List.prefix_append _ r)
          (h ▸ List.prefix_append _ r') with hle | hle
        . exact escape_special_inj (mem_specials hc) (mem_specials hd) hle
        . exact (escape_special_inj (mem_specials hd) (mem_specials hc) hle).symm
      subst hsame
      exact ⟨rfl, List.append_cancel_left h⟩
    . -- a plain character is not a backslash
      have hhead := congrArg List.head? h
      rw [List.head?_append, escape_of_special (mem_specials hc), escape_of_plain hd] at hhead
      exact absurd (Option.some.inj hhead).symm fun heq => hd (.inr (.inl heq))
  . by_cases hd : d = '"' ∨ d = '\\' ∨ d.toNat < 32
    . have hhead := congrArg List.head? h
      rw [List.head?_append, List.head?_append, escape_of_special (mem_specials hd), escape_of_plain hc] at hhead
      exact absurd (Option.some.inj hhead) fun heq => hc (.inr (.inl heq))
    . rw [escape_of_plain hc, escape_of_plain hd] at h
      exact List.cons.inj h

theorem escape_ne_quote (c : Char) (r r' : List Char) : escape c ++ r ≠ '"' :: r' := by
  intro h
  have hhead := congrArg List.head? h
  by_cases hc : c = '"' ∨ c = '\\' ∨ c.toNat < 32
  . rw [List.head?_append, escape_of_special (mem_specials hc)] at hhead
    cases hhead
  . rw [List.head?_append, escape_of_plain hc] at hhead
    exact hc (.inl (Option.some.inj hhead))

theorem escapes_unambiguous (cs ds : List Char)
    (h : cs.flatMap escape ++ '"' :: r = ds.flatMap escape ++ '"' :: r') : cs = ds ∧ r = r' := by
  induction cs generalizing ds with
  | nil =>
    cases ds with
    | nil => exact ⟨rfl, List.tail_eq_of_cons_eq h⟩
    | cons d ds =>
      rw [List.flatMap_cons, List.append_assoc] at h
      exact absurd h.symm (escape_ne_quote d _ _)
  | cons c cs ih =>
    cases ds with
    | nil =>
      rw [List.flatMap_cons, List.append_assoc] at h
      exact absurd h (escape_ne_quote c _ _)
    | cons d ds =>
      rw [List.flatMap_cons, List.flatMap_cons, List.append_assoc, List.append_assoc] at h
      obtain ⟨rfl, hrest⟩ := escape_unambiguous h
      obtain ⟨rfl, hr⟩ := ih ds hrest
      exact ⟨rfl, hr⟩

theorem quote_unambiguous {s t : String} (h : quote s ++ r = quote t ++ r') : s = t ∧ r = r' := by
  simp only [quote, List.cons_append, List.append_assoc, List.nil_append, List.cons.injEq, true_and] at h
  obtain ⟨hchars, hr⟩ := escapes_unambiguous _ _ h
  exact ⟨String.toList_inj.mp hchars, hr⟩

section

variable {α : Type} {write : α → List Char} {close : Char}

def Readable (write : α → List Char) (a : α) : Prop :=
  ∀ b r r', Stops r → Stops r' → write a ++ r = write b ++ r' → a = b ∧ r = r'

theorem stops_listRest (hclose : close.isDigit = false) (parts : List (List Char)) (r : List Char) :
    Stops (listRest close parts ++ r) := by
  intro c hc
  cases parts with
  | nil =>
    obtain rfl : close = c := by simpa [listRest] using hc
    exact hclose
  | cons _ parts =>
    obtain rfl : ',' = c := by simpa [listRest] using hc
    rfl

theorem listRest_unambiguous (hclose : close.isDigit = false) (hcomma : close ≠ ',') (as bs : List α)
    (hread : ∀ a ∈ as, Readable write a)
    (h : listRest close (as.map write) ++ r = listRest close (bs.map write) ++ r') : as = bs ∧ r = r' := by
  induction as generalizing bs with
  | nil =>
    cases bs with
    | nil => exact ⟨rfl, List.tail_eq_of_cons_eq h⟩
    | cons b bs => exact absurd (List.head_eq_of_cons_eq h) hcomma
  | cons a as ih =>
    cases bs with
    | nil => exact absurd (List.head_eq_of_cons_eq h).symm hcomma
    | cons b bs =>
      simp only [List.map_cons, listRest, List.cons_append, List.append_assoc, List.cons.injEq, true_and] at h
      obtain ⟨rfl, hrest⟩ := hread a List.mem_cons_self b _ _ (stops_listRest hclose _ _)
        (stops_listRest hclose _ _) h
      obtain ⟨rfl, hr⟩ := ih bs (fun other hmem => hread other (List.mem_cons_of_mem _ hmem)) hrest
      exact ⟨rfl, hr⟩

theorem listText_unambiguous (hclose : close.isDigit = false) (hcomma : close ≠ ',')
    (hfirst : ∀ a r r', write a ++ r ≠ close :: r') (as bs : List α) (hread : ∀ a ∈ as, Readable write a)
    (h : listText close (as.map write) ++ r = listText close (bs.map write) ++ r') : as = bs ∧ r = r' := by
  cases as with
  | nil =>
    cases bs with
    | nil => exact ⟨rfl, List.tail_eq_of_cons_eq h⟩
    | cons b bs =>
      simp only [List.map_cons, listText, List.append_assoc] at h
      exact absurd h.symm (hfirst b _ _)
  | cons a as =>
    cases bs with
    | nil =>
      simp only [List.map_cons, listText, List.append_assoc] at h
      exact absurd h (hfirst a _ _)
    | cons b bs =>
      simp only [List.map_cons, listText, List.append_assoc] at h
      obtain ⟨rfl, hrest⟩ := hread a List.mem_cons_self b _ _ (stops_listRest hclose _ _)
        (stops_listRest hclose _ _) h
      obtain ⟨rfl, hr⟩ := listRest_unambiguous hclose hcomma as bs
        (fun other hmem => hread other (List.mem_cons_of_mem _ hmem)) hrest
      exact ⟨rfl, hr⟩

end

inductive Lead where
  | word (c : Char)
  | digit
  | bracket (c : Char)
deriving DecidableEq

def lead : Json → Lead
  | null => .word 'n'
  | bool b => .word (if b then 't' else 'f')
  | nat _ => .digit
  | str _ => .bracket '"'
  | arr _ => .bracket '['
  | obj _ => .bracket '{'

def charLead (c : Char) : Lead :=
  if c.isDigit then .digit else if c.isAlpha then .word c else .bracket c

theorem text_head (j : Json) : ∃ c, j.text.head? = some c ∧ charLead c = j.lead := by
  cases j with
  | null => exact ⟨'n', by decide, rfl⟩
  | bool b => cases b with
    | true => exact ⟨'t', by decide, rfl⟩
    | false => exact ⟨'f', by decide, rfl⟩
  | nat n =>
    cases hdigits : Nat.toDigits 10 n with
    | nil => exact absurd hdigits Nat.toDigits_ne_nil
    | cons c =>
      have hdigit : c.isDigit = true :=
        Nat.isDigit_of_mem_toDigits (b := 10) (n := n) (by omega) (by omega) (hdigits ▸ List.mem_cons_self)
      refine ⟨c, ?_, ?_⟩
      . rw [text, hdigits]
        rfl
      . rw [charLead, if_pos hdigit, lead]
  | str => exact ⟨'"', rfl, rfl⟩
  | arr => exact ⟨'[', rfl, rfl⟩
  | obj => exact ⟨'{', rfl, rfl⟩

theorem lead_eq {a b : Json} (h : a.text ++ r = b.text ++ r') : a.lead = b.lead := by
  obtain ⟨_, hc, hlead⟩ := text_head a
  obtain ⟨_, hd, hlead'⟩ := text_head b
  have hhead := congrArg List.head? h
  rw [List.head?_append, List.head?_append, hc, hd] at hhead
  rw [← hlead, ← hlead', Option.some.inj hhead]

theorem text_ne_close (j : Json) (r r' : List Char) : j.text ++ r ≠ ']' :: r' := by
  intro h
  obtain ⟨_, hc, hlead⟩ := text_head j
  have hhead := congrArg List.head? h
  rw [List.head?_append, hc] at hhead
  obtain rfl := Option.some.inj hhead
  cases j with
  | bool b => cases b <;> cases hlead
  | _ => cases hlead

theorem fieldText_ne_close (field : String × Json) (r r' : List Char) : fieldText field ++ r ≠ '}' :: r' := by
  intro h
  cases congrArg List.head? h

theorem readable_field {field : String × Json} (h : Readable text field.2) : Readable fieldText field := by
  rintro ⟨_, value⟩ r r' hr hr' heq
  simp only [fieldText, List.append_assoc, List.cons_append] at heq
  obtain ⟨hname, hrest⟩ := quote_unambiguous heq
  obtain ⟨hvalue, hr⟩ := h value r r' hr hr' (List.tail_eq_of_cons_eq hrest)
  exact ⟨Prod.ext hname hvalue, hr⟩

theorem readable_text (a : Json) : Readable text a := by
  induction a using induct with
  | hnull =>
    intro b r r' hr hr' h
    have hlead := lead_eq h
    cases b with
    | null => exact ⟨rfl, List.append_cancel_left h⟩
    | bool b => cases b <;> cases hlead
    | _ => cases hlead
  | hbool a =>
    intro b r r' hr hr' h
    have hlead := lead_eq h
    cases b with
    | bool b =>
      obtain rfl : a = b := by
        cases a <;> cases b <;> first | rfl | cases hlead
      exact ⟨rfl, List.append_cancel_left h⟩
    | _ => cases a <;> cases hlead
  | hnat =>
    intro b r r' hr hr' h
    have hlead := lead_eq h
    cases b with
    | nat =>
      obtain ⟨rfl, hrest⟩ := toDigits_unambiguous hr hr' h
      exact ⟨rfl, hrest⟩
    | bool b => cases b <;> cases hlead
    | _ => cases hlead
  | hstr =>
    intro b r r' hr hr' h
    have hlead := lead_eq h
    cases b with
    | str =>
      obtain ⟨rfl, hrest⟩ := quote_unambiguous h
      exact ⟨rfl, hrest⟩
    | bool b => cases b <;> cases hlead
    | _ => cases hlead
  | harr items ih =>
    intro b r r' hr hr' h
    have hlead := lead_eq h
    cases b with
    | arr items' =>
      rw [text, text, itemTexts_eq, itemTexts_eq] at h
      obtain ⟨rfl, hrest⟩ := listText_unambiguous rfl (by decide) text_ne_close items items' ih
        (List.tail_eq_of_cons_eq h)
      exact ⟨rfl, hrest⟩
    | bool b => cases b <;> cases hlead
    | _ => cases hlead
  | hobj fields ih =>
    intro b r r' hr hr' h
    have hlead := lead_eq h
    cases b with
    | obj fields' =>
      rw [text, text, fieldTexts_eq, fieldTexts_eq] at h
      obtain ⟨rfl, hrest⟩ := listText_unambiguous rfl (by decide) fieldText_ne_close fields fields'
        (fun field hmem => readable_field (ih field hmem)) (List.tail_eq_of_cons_eq h)
      exact ⟨rfl, hrest⟩
    | bool b => cases b <;> cases hlead
    | _ => cases hlead

theorem bytes_injective : Function.Injective bytes := by
  intro a b h
  have htext : a.text = b.text := String.ofList_injective (String.toByteArray_inj.mp h)
  have hnil : Stops [] := by simp [Stops]
  exact (readable_text a b [] [] hnil hnil (by rw [htext])).1

end Json
