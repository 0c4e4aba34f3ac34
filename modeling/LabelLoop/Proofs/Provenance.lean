import LabelLoop.CommandLine.Run
import LabelLoop.Proofs.Documents

/-!
# Where the characters of a result come from

A codec is ample if it can encode ASCII and whatever it has decoded, character by character
(`Codec.Ample`).  The codecs that the program brings along are (`Encoding.ample_of_codecs`).

A conversion only writes characters of its source and of ASCII, a shielded literal included
(`Conversion.forall_mem_code`), and to a document it adds the content type of converted elements
(`Document.Hooks.forall_mem_process`).  So whatever has been read and converted can be stored with
the codec that it was read with, provided the configured content type can be
(`CommandLine.exists_encode_of_convert`).
-/

namespace LabelLoop

open Text

/-! ### What a codec covers -/

namespace Codec

/-- The codec has bytes for a character. -/
def Covers (codec : Codec) (c : Char) : Prop :=
  ∃ bytes, codec.encode [c] = .ok bytes

/-- A codec is **ample** if it covers ASCII and every character that it decodes, and encodes all
texts of characters that it covers. -/
structure Ample (codec : Codec) : Prop where
  ascii : ∀ c : Char, c.toNat < 128 → codec.Covers c
  decoded : ∀ bytes t, codec.decode bytes = .ok t → ∀ c ∈ t, codec.Covers c
  texts : ∀ t : Text, (∀ c ∈ t, codec.Covers c) → ∃ bytes, codec.encode t = .ok bytes

theorem mem_unifyLines {c : Char} {t : Text} (h : c ∈ unifyLines t) : c ∈ t ∨ c = '\n' := by
  fun_induction unifyLines t with
  | case1 => exact Or.inl h
  | case2 t ih =>
    rcases List.mem_cons.mp h with h | h
    · exact Or.inr h
    · exact (ih h).imp_left fun hmem => List.mem_cons_of_mem _ (List.mem_cons_of_mem _ hmem)
  | case3 d t _ ih =>
    rcases List.mem_cons.mp h with h | h
    · split at h
      · exact Or.inr h
      · exact Or.inl (h ▸ List.mem_cons_self)
    · exact (ih h).imp_left (List.mem_cons_of_mem _)

end Codec

namespace Encoding

/-- The encoding has bytes for a character. -/
def Has : Encoding → Char → Prop
  | .ascii, c => c.toNat < 128
  | .latin1, c => c.toNat < 256
  | .utf8, _ | .utf8Marked, _ | .utf16, _ => True

theorem has_of_ascii (e : Encoding) {c : Char} (h : c.toNat < 128) : e.Has c := by
  cases e with
  | ascii => exact h
  | latin1 => exact Nat.lt_trans h (by decide)
  | utf8 | utf8Marked | utf16 => trivial

theorem exists_encodeBytes_iff (codec : String) (limit : Nat) (t : Text) :
    (∃ bytes, encodeBytes codec limit t = .ok bytes) ↔ ∀ c ∈ t, c.toNat < limit := by
  have hsplit := Marker.takeWhile_append_drop (fun c => decide (c.toNat < limit)) t
  rw [encodeBytes]
  dsimp only
  split
  · rename_i hdrop
    rw [hdrop, List.append_nil, List.takeWhile_eq_self_iff] at hsplit
    exact ⟨fun _ c hc => of_decide_eq_true (hsplit c hc), fun _ => ⟨_, rfl⟩⟩
  · rename_i c cs hdrop
    constructor
    · rintro ⟨bytes, h⟩
      exact absurd h (by simp)
    · intro hall
      have hself : t.takeWhile (fun c => decide (c.toNat < limit)) = t :=
        List.takeWhile_eq_self_iff.mpr fun c hc => decide_eq_true (hall c hc)
      rw [hself, List.drop_length] at hdrop
      exact absurd hdrop (by simp)

/-- **A text can be encoded** if and only if its characters can be. -/
theorem exists_encode_iff (e : Encoding) (t : Text) :
    (∃ bytes, e.encode t = .ok bytes) ↔ ∀ c ∈ t, e.Has c := by
  cases e with
  | ascii => exact exists_encodeBytes_iff _ _ _
  | latin1 => exact exists_encodeBytes_iff _ _ _
  | utf8 | utf8Marked | utf16 => exact ⟨fun _ _ _ => trivial, fun _ => ⟨_, rfl⟩⟩

theorem toNat_lt_of_readByte {limit : Nat} (hlimit : limit ≤ 256) {b : UInt8} {bytes : Bytes}
    {c : Char} {n : Nat} (h : readByte limit b bytes = .char c n) : c.toNat < limit := by
  rw [readByte] at h
  split at h
  · rename_i hb
    obtain ⟨rfl, -⟩ := Reading.char.inj h
    have hvalid : b.toNat.isValidChar := Or.inl (by omega)
    rw [Char.ofNat, dif_pos hvalid]
    exact hb
  · exact absurd h (by simp)

/-- What is decoded character by character consists of what the reader gives. -/
theorem forall_mem_decodeFrom {P : Char → Prop} {codec : String} {read : UInt8 → Bytes → Reading}
    (hread : ∀ b bytes c n, read b bytes = .char c n → P c) {offset skip : Nat} {bytes : Bytes}
    {t : Text} (h : decodeFrom codec read offset skip bytes = .ok t) : ∀ c ∈ t, P c := by
  induction bytes generalizing offset skip t with
  | nil =>
    rw [decodeFrom] at h
    rw [← Except.ok.inj h]
    exact fun c hc => absurd hc List.not_mem_nil
  | cons b bytes ih =>
    cases skip with
    | succ k => exact ih h
    | zero =>
      rw [decodeFrom] at h
      cases hr : read b bytes with
      | bad n reason =>
        rw [hr] at h
        exact absurd h (by simp)
      | char c n =>
        rw [hr] at h
        dsimp only at h
        cases hrest : decodeFrom codec read (offset + 1) (n - 1) bytes with
        | error e =>
          rw [hrest] at h
          exact absurd h (by simp [Except.map])
        | ok rest =>
          rw [hrest] at h
          rw [← Except.ok.inj h, List.forall_mem_cons]
          exact ⟨hread _ _ _ _ hr, ih hrest⟩

/-- **What has been decoded can be encoded.** -/
theorem has_of_mem_decode {e : Encoding} {bytes : Bytes} {t : Text}
    (h : e.decode bytes = .ok t) : ∀ c ∈ t, e.Has c := by
  cases e with
  | ascii => exact forall_mem_decodeFrom (fun _ _ _ _ => toNat_lt_of_readByte (by decide)) h
  | latin1 => exact forall_mem_decodeFrom (fun _ _ _ _ => toNat_lt_of_readByte (by decide)) h
  | utf8 | utf8Marked | utf16 => exact fun _ _ => trivial

theorem covers_codec_iff {e : Encoding} {c : Char} : e.codec.Covers c ↔ e.Has c := by
  rw [← List.forall_mem_singleton (p := e.Has), ← exists_encode_iff]
  rfl

/-- **The encodings are ample.** -/
theorem ample_codec (e : Encoding) : e.codec.Ample where
  ascii _ hc := covers_codec_iff.mpr (e.has_of_ascii hc)
  decoded _ _ h c hc := covers_codec_iff.mpr (has_of_mem_decode h c hc)
  texts t h := (e.exists_encode_iff t).mpr fun c hc => covers_codec_iff.mp (h c hc)

theorem ample_of_codecs {name : Text} {codec : Codec} (h : codecs name = .ok codec) :
    codec.Ample := by
  unfold codecs at h
  split at h
  · rename_i e _
    rw [← Except.ok.inj h]
    exact e.ample_codec
  · exact absurd h (by simp)

end Encoding

/-- A text that has been read from a file is covered by the codec of that name. -/
theorem Delivery.exists_covers_of_readText {codecs : Codecs} {tree : FileTree} {path : Path}
    {encoding t : Text} (hample : ∀ codec, codecs encoding = .ok codec → codec.Ample)
    (h : Delivery.readText codecs tree path encoding = .ok t) :
    ∃ codec, codecs encoding = .ok codec ∧ ∀ c ∈ t, codec.Covers c := by
  rw [readText] at h
  split at h
  · exact absurd h (by simp)
  · split at h
    · exact absurd h (by simp)
    · exact absurd h (by simp)
    · rename_i content codec _ hcodec
      split at h
      · exact absurd h (by simp)
      · rename_i decoded hdecode
        rw [← Except.ok.inj h]
        refine ⟨codec, hcodec, fun c hc => ?_⟩
        rcases Codec.mem_unifyLines hc with hc | rfl
        · exact (hample codec hcodec).decoded _ _ hdecode c hc
        · exact (hample codec hcodec).ascii _ (by decide)

/-! ### Conversions

`P` is a property of characters that those of ASCII have. -/

section Characters

open Literal Lowering Marker

variable {P : Char → Prop}

namespace Literal

theorem forall_mem_slice {t : Text} (h : ∀ c ∈ t, P c) (start stop : Nat) :
    ∀ c ∈ slice t start stop, P c :=
  fun c hc => h c (List.mem_of_mem_take (List.mem_of_mem_drop hc))

theorem forall_mem_coverFrom {placeholder source : Text} (hplaceholder : ∀ c ∈ placeholder, P c)
    (hsource : ∀ c ∈ source, P c) (pos : Nat) (spans : List Span) :
    ∀ c ∈ coverFrom placeholder source pos spans, P c := by
  induction spans generalizing pos with
  | nil => exact fun c hc => hsource c (List.mem_of_mem_drop hc)
  | cons s spans ih =>
    rw [coverFrom, List.forall_mem_append, List.forall_mem_append]
    exact ⟨⟨forall_mem_slice hsource _ _, hplaceholder⟩, ih _⟩

theorem forall_mem_fill {placeholder : Text} {literals : List Text} {next : List Text → Restored}
    (hplaceholder : ∀ c ∈ placeholder, P c) (hliterals : ∀ l ∈ literals, ∀ c ∈ l, P c)
    (hnext : ∀ ls, (∀ l ∈ ls, ∀ c ∈ l, P c) → ∀ c ∈ (next ls).text, P c) :
    ∀ c ∈ (fill placeholder literals next).text, P c := by
  cases literals with
  | nil =>
    rw [fill, List.forall_mem_append]
    exact ⟨hplaceholder, hnext [] hliterals⟩
  | cons l ls =>
    rw [List.forall_mem_cons] at hliterals
    rw [fill, Restored.prepend, List.forall_mem_append]
    exact ⟨hliterals.1, hnext ls hliterals.2⟩

theorem forall_mem_restoreFrom {placeholder : Text} (hplaceholder : ∀ c ∈ placeholder, P c)
    {literals : List Text} (hliterals : ∀ l ∈ literals, ∀ c ∈ l, P c) {t : Text}
    (ht : ∀ c ∈ t, P c) (skip : Nat) :
    ∀ c ∈ (restoreFrom placeholder literals skip t).text, P c := by
  induction t generalizing literals skip with
  | nil => exact ht
  | cons d t ih =>
    rw [List.forall_mem_cons] at ht
    cases skip with
    | succ k => exact ih hliterals ht.2 k
    | zero =>
      rw [restoreFrom]
      split
      · exact forall_mem_fill hplaceholder hliterals fun ls hls => ih hls ht.2 _
      · rw [Restored.prepend, List.singleton_append, List.forall_mem_cons]
        exact ⟨ht.1, ih hliterals ht.2 0⟩

/-- A restored text consists of the placeholder, the literals and the text. -/
theorem forall_mem_restore {placeholder : Text} (hne : placeholder ≠ [])
    (hplaceholder : ∀ c ∈ placeholder, P c) {literals : List Text}
    (hliterals : ∀ l ∈ literals, ∀ c ∈ l, P c) {t : Text} (ht : ∀ c ∈ t, P c) :
    ∀ c ∈ (restore placeholder literals t).text, P c := by
  rw [restore, if_neg hne]
  exact forall_mem_restoreFrom hplaceholder hliterals ht 0

end Literal

variable (hascii : ∀ c : Char, c.toNat < 128 → P c)
include hascii

theorem forall_mem_of_ascii {t : Text} (h : t.all (fun c => decide (c.toNat < 128)) = true) :
    ∀ c ∈ t, P c :=
  fun c hc => hascii c (forall_mem_of_all h c hc)

theorem Literal.forall_mem_placeholderAt (clock : Int) : ∀ c ∈ placeholderAt clock, P c := by
  have hdigit : ∀ c ∈ "0123456789-_".toList, P c := forall_mem_of_ascii hascii (by decide)
  intro c hc
  rw [placeholderAt, List.mem_cons] at hc
  rcases hc with rfl | hc
  · exact hdigit '_' (by decide)
  · by_cases hsign : c = '-'
    · exact hdigit c (hsign ▸ by decide)
    · by_cases hc' : c.isDigit = true
      · exact hdigit c (List.mem_append_left "-_".toList (mem_of_isDigit hc'))
      · exact absurd hc (not_mem_ofInt (Bool.not_eq_true _ ▸ hc') hsign _)

omit hascii in
theorem Marker.Form.Spells.name_subset {form : Form} {name raw : Text} (h : form.Spells name raw) :
    name ⊆ raw := by
  obtain ⟨key, gap, pad, rfl, -⟩ := h
  exact fun c hc =>
    List.mem_append_right key (List.mem_append_right gap (List.mem_append_left _ hc))

/-- A lowered text consists of the text and of what templates write. -/
theorem Lowering.forall_mem_sweep {ps : List Piece} (h : Cut ps) (hps : ∀ c ∈ written ps, P c)
    (pending : List Nat) : ∀ c ∈ sweep pending ps, P c := by
  have hbraces : ∀ n, ∀ c ∈ List.replicate n '\x7d', P c := by
    intro n c hc
    rw [List.eq_of_mem_replicate hc]
    exact hascii _ (by decide)
  induction h using Cut.induct generalizing pending with
  | nil => exact hbraces _
  | @char d ps _ _ ih =>
    obtain ⟨hd, hps⟩ := List.forall_mem_cons.mp hps
    rw [sweep, List.forall_mem_append, List.forall_mem_cons]
    exact ⟨hbraces _, hd, ih hps _⟩
  | @marker k name raw ps hspells _ ih =>
    have hraw : ∀ c ∈ raw, P c := fun c hc => hps c (List.mem_append_left _ hc)
    rw [sweep, List.forall_mem_append]
    refine ⟨fun c hc => ?_, ih (fun c hc => hps c (List.mem_append_right _ hc)) _⟩
    rcases mem_lowered hc with hc | hc
    · exact hraw c (hspells.name_subset hc)
    · exact forall_mem_of_ascii hascii (by decide +kernel) c hc

/-- **A conversion brings in nothing** but characters of ASCII. -/
theorem Conversion.forall_mem_code {o : Options} (hheader : o.header = Loop.header)
    (hne : o.placeholder ≠ []) (hplaceholder : ∀ c ∈ o.placeholder, P c) {strict : Bool}
    {source : Text} (hsource : ∀ c ∈ source, P c) {converted : Converted}
    (h : convert o strict source = .ok converted) : ∀ c ∈ converted.code, P c := by
  have hshielded : ∀ c ∈ (shield o.scan o.placeholder source).text, P c :=
    forall_mem_coverFrom hplaceholder hsource 0 _
  obtain ⟨ps, hcut, hps⟩ := exists_cut (shield o.scan o.placeholder source).text
  have hlower := lower_written hcut
  rw [hps, ← hheader] at hlower
  rw [convert, permissive_of_lower hlower] at h
  dsimp only at h
  split at h
  · exact absurd h (by simp)
  · rw [← Except.ok.inj h]
    have hlowered := forall_mem_sweep hascii hcut (hps ▸ hshielded) []
    refine forall_mem_restore hne hplaceholder (fun l hl => ?_) hlowered
    obtain ⟨s, -, rfl⟩ := List.mem_map.mp hl
    exact forall_mem_slice hsource _ _

/-- What takes the place of an element brings in nothing that its body and its content type do
not. -/
theorem Document.Hooks.forall_mem_converted {α ε : Type} {hooks : Hooks α}
    {run : α → Text → Except ε Text} (houtput : ∀ c ∈ hooks.outputType, P c)
    (hrun : ∀ hook body code, run hook body = .ok code → (∀ c ∈ body, P c) → ∀ c ∈ code, P c)
    {key : Text} {e e' : Element} (he : ∀ c ∈ e.written key, P c)
    (h : hooks.converted run e = some e') : ∀ c ∈ e'.written "<script".toList, P c := by
  have hclose : P '>' := hascii _ (by decide)
  have hopening : ∀ c ∈ "<script".toList, P c := forall_mem_of_ascii hascii (by decide)
  have htyped : ∀ c ∈ typed hooks.outputType, P c := by
    refine List.forall_mem_append.mpr ⟨forall_mem_of_ascii hascii (by decide), ?_⟩
    rw [List.forall_mem_append, List.forall_mem_singleton]
    exact ⟨houtput, hascii _ (by decide)⟩
  rw [Element.written, List.forall_mem_append, List.forall_mem_append, List.forall_mem_cons,
    List.forall_mem_append] at he
  obtain ⟨-, hattributes, -, hbody, hcloseTag⟩ := he
  obtain ⟨hook, -, hsome⟩ := Option.bind_eq_some_iff.mp h
  split at hsome
  · exact absurd hsome (by simp)
  · rename_i code hcode
    rw [← Option.some.inj hsome]
    refine List.forall_mem_append.mpr ⟨hopening, ?_⟩
    rw [List.forall_mem_append, List.forall_mem_cons, List.forall_mem_append]
    refine ⟨fun c hc => ?_, hclose, hrun hook _ _ hcode hbody, hcloseTag⟩
    rcases mem_or_mem_of_mem_retag hc with hc | hc
    · exact hattributes c hc
    · exact htyped c hc

/-- **Processing a document brings in nothing** but characters of ASCII and of the content type of
converted elements, if the hooks do not. -/
theorem Document.Hooks.forall_mem_process {α ε : Type} {hooks : Hooks α}
    {run : α → Text → Except ε Text} (houtput : ∀ c ∈ hooks.outputType, P c)
    (hrun : ∀ hook body code, run hook body = .ok code → (∀ c ∈ body, P c) → ∀ c ∈ code, P c)
    {document : Text} (hdocument : ∀ c ∈ document, P c) {text : Text}
    (h : hooks.process run document = .ok text) : ∀ c ∈ text, P c := by
  obtain ⟨ps, hps, rfl⟩ := exists_parsed document
  rw [process_textOf hps] at h
  split at h
  · exact absurd h (by simp)
  · rw [← Except.ok.inj h]
    intro c hc
    obtain ⟨p', hp', hc⟩ := List.mem_flatMap.mp hc
    obtain ⟨p, hp, rfl⟩ := List.mem_map.mp hp'
    have hpart : ∀ d ∈ p.text, P d := fun d hd => hdocument d (List.mem_flatMap.mpr ⟨p, hp, hd⟩)
    cases p with
    | char d => exact hpart c hc
    | element key e =>
      rw [Part.change] at hc
      split at hc
      · exact hpart c hc
      · rename_i e' he'
        exact forall_mem_converted hascii houtput hrun hpart he' c hc

end Characters

/-! ### Commands -/

/-- The configured content type of documents **can be encoded**, if it may be written at all. -/
def CommandLine.Arguments.TypeEncodable (a : Arguments) (settings : Settings) (codecs : Codecs) :
    Prop :=
  a.html = true → ∀ codec, codecs a.encoding = .ok codec → ∀ c ∈ settings.outputType, codec.Covers c

/-- **What has been read and converted can be encoded** as it was read, if the configured content
type can be. -/
theorem CommandLine.exists_encode_of_convert {a : Arguments} {settings : Settings} {codecs : Codecs}
    (htype : a.TypeEncodable settings codecs) {codec : Codec}
    (hcodec : codecs a.encoding = .ok codec) (hample : codec.Ample) {clock : Int} {source : Text}
    (hsource : ∀ c ∈ source, codec.Covers c) {product : Product}
    (h : convert a settings clock source = .ok product) :
    ∃ bytes, codec.encode product.text = .ok bytes := by
  apply hample.texts
  have hcode : ∀ body converted,
      Conversion.convert (a.options clock) a.strict body = .ok converted →
      (∀ c ∈ body, codec.Covers c) → ∀ c ∈ converted.code, codec.Covers c :=
    fun body converted hbody hchars =>
      Conversion.forall_mem_code hample.ascii rfl (List.cons_ne_nil _ _)
        (Literal.forall_mem_placeholderAt hample.ascii clock) hchars hbody
  rw [convert] at h
  dsimp only at h
  split at h
  · rename_i hhtml
    split at h
    · exact absurd h (by simp)
    · rename_i text hprocess
      rw [← Except.ok.inj h]
      refine Document.Hooks.forall_mem_process hample.ascii ?_ ?_ hsource hprocess
      · exact htype hhtml codec hcodec
      · intro _ body code hbody
        cases hconverted : Conversion.convert (a.options clock) a.strict body with
        | error f =>
          rw [hconverted] at hbody
          exact absurd hbody (by simp [Except.map])
        | ok converted =>
          rw [hconverted] at hbody
          rw [← Except.ok.inj hbody]
          exact hcode body converted hconverted
  · split at h
    · exact absurd h (by simp)
    · rename_i converted hconverted
      rw [← Except.ok.inj h]
      exact hcode source converted hconverted hsource

end LabelLoop
