import MediaTransport.Proofs.Rtsp.Location
import MediaTransport.Proofs.Text.Utf8

/-!
# The request URIs of streams

Trailing slashes come off a location without touching its authority, which is not empty and ends
in no slash (`Divides.dropSlashes`).  So the text of a location is read as the same location
again, up to a path of slashes only (`IsLocation.dropSlashes`).

A control text is absolute when its first seven bytes are the scheme (`StartsWithScheme`).  The
reader compares characters, and that is the same: a byte of an ASCII character stands for nothing
else (`startsWithScheme_iff`).
-/

namespace MediaTransport.Rtsp

open Text Address

/-! ## The first bytes of a text -/

/-- A byte without the case of an ASCII letter. -/
def lowerByte (b : UInt8) : UInt8 :=
  if 0x41 ≤ b ∧ b ≤ 0x5A then b + 0x20 else b

/-- The first seven bytes of a text are the scheme, in any letter case. -/
def StartsWithScheme (text : String) : Prop :=
  ((Utf8.encode text).take 7).map lowerByte = Utf8.encode "rtsp://"

theorem lowerByte_ofNat {n : ℕ} (h : n < 0x80) :
    lowerByte (UInt8.ofNat n) = UInt8.ofNat (Char.ofNat n).toLower.toNat := by
  have hall : ∀ n < 0x80, lowerByte (UInt8.ofNat n) = UInt8.ofNat (Char.ofNat n).toLower.toNat := by
    decide
  exact hall n h

theorem lt_of_lowerByte_lt {b : UInt8} (h : lowerByte b < 0x80) : b < 0x80 := by
  unfold lowerByte at h
  split at h
  next hletter => exact UInt8.lt_of_le_of_lt hletter.2 (by decide)
  next => exact h

theorem toNat_toLower_lt_iff {c : Char} : c.toLower.toNat < 0x80 ↔ c.toNat < 0x80 := by
  rw [toNat_toLower]
  split <;> omega

/-- Only an ASCII character has an ASCII byte in front. -/
theorem map_lowerByte_take_cons {c p : Char} (hp : p.toNat < 0x80) {n : ℕ}
    {rest bytes : List UInt8} :
    ((String.utf8EncodeChar c ++ rest).take (n + 1)).map lowerByte = UInt8.ofNat p.toNat :: bytes ↔
      c.toLower = p ∧ (rest.take n).map lowerByte = bytes := by
  by_cases hc : c.toNat < 0x80
  · have hlower : c.toLower.toNat < 0x80 := toNat_toLower_lt_iff.2 hc
    have hbyte : UInt8.ofNat c.toLower.toNat = UInt8.ofNat p.toNat ↔ c.toLower = p := by
      rw [← UInt8.toNat_inj, UInt8.toNat_ofNat', UInt8.toNat_ofNat', Nat.mod_eq_of_lt (by omega),
        Nat.mod_eq_of_lt (by omega), Char.toNat_inj]
    have hencode := Utf8.utf8EncodeChar_single hc
    rw [Char.ofNat_toNat] at hencode
    rw [hencode, List.singleton_append, List.take_succ_cons, List.map_cons, lowerByte_ofNat hc,
      Char.ofNat_toNat, List.cons_eq_cons, hbyte]
  · constructor
    · intro h
      obtain ⟨b, more, hencode⟩ : ∃ b more, String.utf8EncodeChar c = b :: more :=
        List.exists_cons_of_ne_nil String.utf8EncodeChar_ne_nil
      rw [hencode, List.cons_append, List.take_succ_cons, List.map_cons, List.cons_eq_cons] at h
      have hb : b < 0x80 := by
        refine lt_of_lowerByte_lt ?_
        rw [h.1, UInt8.lt_iff_toNat_lt, UInt8.toNat_ofNat', Nat.mod_eq_of_lt (by omega)]
        exact hp
      have hchar : c = Char.ofNat b.toNat := Utf8.eq_ofNat_of_mem hb (hencode ▸ List.mem_cons_self)
      have hnat : b.toNat < 0x80 := hb
      have hval : c.toNat = b.toNat := by
        rw [hchar]
        exact Utf8.toNat_ofNat (by omega)
      omega
    · rintro ⟨rfl, -⟩
      exact absurd (toNat_toLower_lt_iff.1 hp) hc

/-- On the bytes of a text an ASCII opening is found where its characters stand. -/
theorem map_lowerByte_take {opening text : List Char} (h : ∀ c ∈ opening, c.toNat < 0x80) :
    ((text.flatMap String.utf8EncodeChar).take opening.length).map lowerByte
        = opening.map (fun c => UInt8.ofNat c.toNat) ↔
      (text.take opening.length).map Char.toLower = opening := by
  induction opening generalizing text with
  | nil => simp
  | cons p opening ih =>
    cases text with
    | nil => simp
    | cons c text =>
      rw [List.flatMap_cons, List.length_cons, List.map_cons,
        map_lowerByte_take_cons (h p List.mem_cons_self),
        ih fun c hc => h c (List.mem_cons_of_mem p hc), List.take_succ_cons, List.map_cons,
        List.cons_eq_cons]

/-- The reader of the scheme sees the first seven bytes. -/
theorem startsWithScheme_iff {text : String} :
    StartsWithScheme text ↔ (afterScheme? text.toList).isSome = true := by
  have hall : scheme.all (fun c => decide (c.toNat < 0x80)) = true := by decide
  have hascii : ∀ c ∈ scheme, c.toNat < 0x80 := by simpa using hall
  have hlower : scheme.map Char.toLower = scheme := by decide
  have hencode : Utf8.encode "rtsp://" = scheme.map fun c => UInt8.ofNat c.toNat := by
    rw [Utf8.encode_eq]
    decide
  rw [StartsWithScheme, hencode, Utf8.encode_eq]
  rw [show (7 : ℕ) = scheme.length from rfl, map_lowerByte_take hascii, afterScheme?,
    equalsIgnoringCase, hlower]
  simp

/-! ## Trailing slashes -/

theorem getLast?_withoutSlashes (text : List Char) : (withoutSlashes text).getLast? ≠ some '/' := by
  intro h
  have hslash := getLast?_dropEndWhile (· == '/') text '/' h
  simp at hslash

theorem withoutSlashes_withoutSlashes (text : List Char) :
    withoutSlashes (withoutSlashes text) = withoutSlashes text :=
  dropEndWhile_of_getLast? (getLast?_dropEndWhile _ text)

theorem IsPath.dropSlashes {path : List Char} (h : IsPath path) :
    IsPath (withoutSlashes path) := by
  intro c hc
  obtain ⟨slashes, hslashes⟩ : withoutSlashes path <+: path := isPrefix_dropEndWhile _ path
  refine h c ?_
  rw [← hslashes, List.head?_append, hc, Option.some_or, Option.mem_some_iff]

/-- Trailing slashes come off the path, since the authority in front of it ends in none. -/
theorem Divides.dropSlashes {text authority path : List Char} (h : Divides text authority path)
    (hne : authority ≠ []) : Divides (withoutSlashes text) authority (withoutSlashes path) := by
  cases h with
  | @intro opening credentials authority path hscheme hcredentials hat hslash hpath =>
    obtain ⟨c, hlast⟩ := Option.ne_none_iff_exists'.1 (mt List.getLast?_eq_none_iff.1 hne)
    have hc : (c == '/') = false := by
      rw [beq_eq_false_iff_ne]
      rintro rfl
      exact hslash (List.mem_of_getLast? hlast)
    have htext : withoutSlashes (opening ++ (credentials ++ (authority ++ path)))
        = opening ++ (credentials ++ (authority ++ withoutSlashes path)) := by
      have hfirst : (opening ++ credentials ++ authority).getLast? = some c := by
        rw [List.getLast?_append, hlast, Option.some_or]
      simp only [withoutSlashes, ← List.append_assoc]
      exact dropEndWhile_append hfirst hc path
    rw [htext]
    exact .intro hscheme hcredentials hat hslash hpath.dropSlashes

theorem HasParts.ne_nil {authority host tail : List Char} (h : HasParts authority host tail)
    (hne : trim host ≠ []) : authority ≠ [] := by
  have hhost : host ≠ [] := by
    rintro rfl
    exact hne rfl
  cases h with
  | bracketed => exact List.cons_ne_nil _ _
  | plain => exact hhost
  | ported => exact List.append_ne_nil_of_left_ne_nil hhost _

/-- The text of a location is read as a location with the same text. -/
theorem IsLocation.dropSlashes {text : List Char} {l : Location} (h : IsLocation text l) :
    ∃ l', IsLocation (withoutSlashes text) l' ∧ l'.host = l.host ∧ l'.port = l.port ∧
      l'.text = l.text := by
  cases h with
  | @intro _ path _ _ _ hdivides hparts hport hhost _ htext =>
    have hrest := hdivides.dropSlashes (hparts.ne_nil hhost.ne_nil)
    let l' : Location :=
      { l with path := if withoutSlashes path = [] then "/" else String.ofList (withoutSlashes path) }
    refine ⟨l', .intro hrest hparts hport hhost rfl ?_, rfl, rfl, rfl⟩
    rw [withoutSlashes_withoutSlashes]
    exact htext

/-! ## Request URIs -/

theorem IsLocation.toList_text {text : List Char} {l : Location} (h : IsLocation text l) :
    l.text.toList = withoutSlashes text := by
  cases h with
  | intro _ _ _ _ _ htext => rw [htext, String.toList_ofList]

theorem Divides.exists_scheme {text authority path : List Char} (h : Divides text authority path) :
    ∃ opening rest, IsScheme opening ∧ text = opening ++ rest := by
  cases h with
  | intro hscheme _ _ _ _ => exact ⟨_, _, hscheme, rfl⟩

/-- The text of a location starts with the scheme, and so does what it is continued to. -/
theorem IsLocation.startsWithScheme {text : List Char} {l : Location} (h : IsLocation text l)
    (more : String) : StartsWithScheme (l.text ++ more) := by
  obtain ⟨l', hlocation, -⟩ := h.dropSlashes
  rw [startsWithScheme_iff, String.toList_append, h.toList_text]
  cases hlocation with
  | intro hdivides _ _ _ _ _ =>
    obtain ⟨opening, rest, hopening, htext⟩ := hdivides.exists_scheme
    rw [htext, List.append_assoc, afterScheme?_eq_some_iff.2 ⟨opening, hopening, rfl⟩]
    rfl

theorem Location.streamUri_of_startsWithScheme {control : String} (h : StartsWithScheme control)
    (l : Location) : l.streamUri control = control := by
  rw [Location.streamUri, if_pos (startsWithScheme_iff.1 h)]

/-- A control text that is not absolute is put behind the location. -/
theorem Location.streamUri_relative {control : String} (h : ¬StartsWithScheme control)
    (hstar : control ≠ "*") (hempty : control ≠ "") (l : Location) :
    ∃ slashes rest, control.toList = slashes ++ rest ∧ (∀ c ∈ slashes, c = '/') ∧
      rest.head? ≠ some '/' ∧ l.streamUri control = l.text ++ "/" ++ String.ofList rest := by
  have hother : ¬(control.toList = [] ∨ control.toList = ['*']) := by
    rintro (hnil | hsingle)
    · exact hempty (String.toList_inj.1 hnil)
    · exact hstar (String.toList_inj.1 hsingle)
  refine ⟨control.toList.takeWhile (· == '/'), control.toList.dropWhile (· == '/'),
    List.takeWhile_append_dropWhile.symm, fun c hc => ?_, fun hhead => ?_, ?_⟩
  · simpa using List.mem_takeWhile_imp hc
  · have hkept := List.head?_dropWhile_not (· == '/') control.toList
    rw [hhead] at hkept
    simp at hkept
  · rw [Location.streamUri, if_neg (mt startsWithScheme_iff.2 h), if_neg hother]

/-- A stream is named by an absolute text, whatever its control text is. -/
theorem IsLocation.startsWithScheme_streamUri {text : List Char} {l : Location}
    (h : IsLocation text l) (control : String) : StartsWithScheme (l.streamUri control) := by
  by_cases habsolute : StartsWithScheme control
  · rwa [Location.streamUri_of_startsWithScheme habsolute]
  · rw [Location.streamUri, if_neg (mt startsWithScheme_iff.2 habsolute)]
    split
    · simpa using h.startsWithScheme ""
    · rw [String.append_assoc]
      exact h.startsWithScheme _

/-- The text of a location ends in no slash and is read as the location again.  With it every
control text becomes an absolute one, which stays as it is: `*` and the empty one are the location,
and every other one that is not absolute itself is put behind it and a single slash. -/
theorem Location.streamUri_stable {text : String} {l : Location}
    (h : Location.parse text = .ok l) :
    (∀ control, StartsWithScheme (l.streamUri control)) ∧
    (∀ control, l.streamUri (l.streamUri control) = l.streamUri control) ∧
    l.streamUri "*" = l.text ∧ l.streamUri "" = l.text ∧
    (∀ control, ¬StartsWithScheme control → control ≠ "*" → control ≠ "" →
      ∃ slashes rest, control.toList = slashes ++ rest ∧ (∀ c ∈ slashes, c = '/') ∧
        rest.head? ≠ some '/' ∧ l.streamUri control = l.text ++ "/" ++ String.ofList rest) ∧
    l.text.toList.getLast? ≠ some '/' ∧
    ∃ l', Location.parse l.text = .ok l' ∧ l'.host = l.host ∧ l'.port = l.port ∧
      l'.text = l.text := by
  have hlocation : IsLocation text.toList l := Location.parse_eq_ok_iff.1 h
  refine ⟨hlocation.startsWithScheme_streamUri, fun control => ?_, rfl, rfl,
    fun control hrelative hstar hempty => l.streamUri_relative hrelative hstar hempty, ?_, ?_⟩
  · exact l.streamUri_of_startsWithScheme (hlocation.startsWithScheme_streamUri control)
  · rw [hlocation.toList_text]
    exact getLast?_withoutSlashes text.toList
  · obtain ⟨l', hread, hsame⟩ := hlocation.dropSlashes
    refine ⟨l', ?_, hsame⟩
    rwa [Location.parse_eq_ok_iff, hlocation.toList_text]

/-- A location with credentials, trailing slashes and a scheme in upper case, and a control text that
starts with slashes and has more than ASCII characters. -/
theorem Location.streamUri_stable_slashes :
    ∃ l, Location.parse "RTSP://u:p@h:8554/a//" = .ok l ∧
      l.streamUri "//straße" = "RTSP://u:p@h:8554/a/straße" ∧
      l.streamUri (l.streamUri "//straße") = l.streamUri "//straße" ∧
      l.text.toList.getLast? ≠ some '/' ∧
      ∃ l', Location.parse l.text = .ok l' ∧ l'.host = l.host ∧ l'.port = l.port ∧
        l'.text = l.text := by
  let l : Location := ⟨.name "h", 8554, "/a//", "RTSP://u:p@h:8554/a"⟩
  have hread : Location.parse "RTSP://u:p@h:8554/a//" = .ok l := by rfl
  obtain ⟨-, hagain, -, -, -, hlast, hsame⟩ := Location.streamUri_stable hread
  exact ⟨l, hread, by rfl, hagain _, hlast, hsame⟩

end MediaTransport.Rtsp
