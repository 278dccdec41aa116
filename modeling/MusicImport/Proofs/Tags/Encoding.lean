import MusicImport.Proofs.Journal.Bytes
import MusicImport.Proofs.Text.Normal
import MusicImport.Tags.Flac

/-! FLAC files are read back as they were written, as long as their blocks are not too long for the three
bytes of their lengths. -/
namespace MusicImport.FlacFile

theorem toLittleEndian_succ (count n : Nat) :
    toLittleEndian (count + 1) n = UInt8.ofNat (n % 256) :: toLittleEndian count (n / 256) := by
  simp only [toLittleEndian, List.range_succ_eq_map, List.map_cons, List.map_map, Nat.pow_eq,
    Nat.pow_zero, Nat.div_one]
  congr 1
  refine List.map_congr_left fun i _ => ?_
  simp only [Function.comp_apply, Nat.succ_eq_add_one, Nat.pow_succ', Nat.div_div_eq_div_mul]

theorem littleEndian_cons (b : UInt8) (bytes : List UInt8) :
    littleEndian (b :: bytes) = littleEndian bytes * 256 + b.toNat := by
  simp [littleEndian, bigEndian]

@[simp] theorem length_toLittleEndian (count n : Nat) : (toLittleEndian count n).length = count := by
  simp [toLittleEndian]

@[simp] theorem length_toBigEndian (count n : Nat) : (toBigEndian count n).length = count := by
  simp [toBigEndian]

theorem littleEndian_toLittleEndian {count n : Nat} (h : n < Nat.pow 256 count) :
    littleEndian (toLittleEndian count n) = n := by
  induction count generalizing n with
  | zero =>
    obtain rfl : n = 0 := by simpa using h
    rfl
  | succ count ih =>
    have hrest : n / 256 < Nat.pow 256 count := by
      rw [Nat.pow_eq, Nat.pow_succ] at h
      exact Nat.div_lt_of_lt_mul (by rwa [Nat.mul_comm] at h)
    rw [toLittleEndian_succ, littleEndian_cons, ih hrest]
    have hbyte : (UInt8.ofNat (n % 256)).toNat = n % 256 := by simp
    omega

theorem bigEndian_toBigEndian {count n : Nat} (h : n < Nat.pow 256 count) :
    bigEndian (toBigEndian count n) = n := by
  have hback : bigEndian (toBigEndian count n) = littleEndian (toLittleEndian count n) := rfl
  rw [hback, littleEndian_toLittleEndian h]

theorem split?_append {n : Nat} {bytes : List UInt8} (h : bytes.length = n) (rest : List UInt8) :
    split? n (bytes ++ rest) = some (bytes, rest) := by
  rw [split?, if_pos (by simp [h]), List.take_left' h, List.drop_left' h]

theorem readText?_writeText {s : String} (h : s.toUTF8.toList.length < Nat.pow 256 4)
    (rest : List UInt8) : readText? (writeText s ++ rest) = some (s, rest) := by
  have htext : String.fromUTF8? ⟨s.toUTF8.toList.toArray⟩ = some s := by
    rw [Text.fromUTF8?_eq_some, Text.toList_byteArray]
    rfl
  rw [readText?, writeText, List.append_assoc, split?_append (length_toLittleEndian ..)]
  simp only [Option.bind_eq_bind, Option.bind_some, littleEndian_toLittleEndian h,
    split?_append rfl, htext]
  rfl

/-- A name with no equals sign in it is found again before the first one. -/
theorem commentOf?_text {c : Comment} (h : '=' ∉ c.name.toList) :
    commentOf? (c.name ++ "=" ++ c.text) = some c := by
  have hname : ∀ a ∈ c.name.toList, (a != '=') = true := by
    intro a ha
    simp only [bne_iff_ne, ne_eq]
    rintro rfl
    exact h ha
  have hchars : (c.name ++ "=" ++ c.text).toList = c.name.toList ++ '=' :: c.text.toList := by
    simp [String.toList_append]
  obtain ⟨htake, hdrop⟩ := @Text.span_append _ _ _ ('=' :: c.text.toList) hname (by simp)
  simp [commentOf?, hchars, htake, hdrop]

variable {cs : List Comment} {f : FlacFile} {bs : List FlacBlock} {content : ByteArray}

theorem readComments?_written (hnames : ∀ c ∈ cs, '=' ∉ c.name.toList)
    (hfit : ∀ c ∈ cs, (c.name ++ "=" ++ c.text).toUTF8.toList.length < Nat.pow 256 4) :
    readComments? cs.length (cs.flatMap fun c => writeText (c.name ++ "=" ++ c.text)) = some cs := by
  induction cs with
  | nil => rfl
  | cons c cs ih =>
    have hothers := ih (fun d hd => hnames d (.tail _ hd)) (fun d hd => hfit d (.tail _ hd))
    rw [List.length_cons, List.flatMap_cons, readComments?, readText?_writeText (hfit c (.head _))]
    simp only [Option.bind_eq_bind, Option.bind_some, hothers, commentOf?_text (hnames c (.head _))]
    rfl

/-- Neither the number of keyed texts nor one of them is longer than all of them together. -/
theorem written_fit (cs : List Comment) (bound : Nat)
    (h : (cs.flatMap fun c => writeText (c.name ++ "=" ++ c.text)).length < bound) :
    cs.length < bound ∧ ∀ c ∈ cs, (c.name ++ "=" ++ c.text).toUTF8.toList.length < bound := by
  have hlength (s : String) : (writeText s).length = 4 + s.toUTF8.toList.length := by
    simp [writeText]
  induction cs generalizing bound with
  | nil => exact ⟨h, fun c hc => absurd hc List.not_mem_nil⟩
  | cons c cs ih =>
    rw [List.flatMap_cons, List.length_append, hlength] at h
    obtain ⟨hcount, hothers⟩ := ih (bound - 4) (by omega)
    refine ⟨by rw [List.length_cons]; omega, List.forall_mem_cons.mpr ⟨by omega, fun d hd => ?_⟩⟩
    have hd := hothers d hd
    omega

/-- The keyed texts of a block are those it was written for. -/
theorem commentsOf?_commentBlock (hnames : ∀ c ∈ cs, '=' ∉ c.name.toList)
    (hfit : (commentBlock "" cs).body.length < Nat.pow 256 3) :
    commentsOf? (commentBlock "" cs).body = some cs := by
  have hbody : (commentBlock "" cs).body = writeText "" ++ (toLittleEndian 4 cs.length ++
      cs.flatMap fun c => writeText (c.name ++ "=" ++ c.text)) := List.append_assoc ..
  rw [hbody, List.length_append, List.length_append] at hfit
  have hbounds : Nat.pow 256 3 ≤ Nat.pow 256 4 := by decide
  obtain ⟨hcount, htexts⟩ := written_fit cs (Nat.pow 256 4) (by omega)
  rw [commentsOf?, hbody, readText?_writeText (by simp [Text.toList_byteArray])]
  simp only [Option.bind_eq_bind, Option.bind_some, split?_append (length_toLittleEndian ..),
    littleEndian_toLittleEndian hcount, readComments?_written hnames htexts]

/-- Keyed texts that were read have names that go up to the first equals sign. -/
theorem commentOf?_name {s : String} {c : Comment} (h : commentOf? s = some c) :
    '=' ∉ c.name.toList := by
  unfold commentOf? at h
  split at h
  · cases h
    intro hmem
    rw [String.toList_ofList] at hmem
    simpa using List.mem_takeWhile_imp hmem
  · cases h

theorem readComments?_names {n : Nat} {bytes : List UInt8} (h : readComments? n bytes = some cs) :
    ∀ c ∈ cs, '=' ∉ c.name.toList := by
  induction n generalizing bytes cs with
  | zero =>
    cases h
    exact fun c hc => absurd hc List.not_mem_nil
  | succ n ih =>
    simp only [readComments?, Option.bind_eq_bind, Option.bind_eq_some_iff] at h
    obtain ⟨⟨text, rest⟩, -, others, hothers, h⟩ := h
    cases h
    intro c hc
    obtain hc | hc := List.mem_append.mp hc
    · exact commentOf?_name (by simpa using hc)
    · exact ih hothers c hc

theorem comments_names (f : FlacFile) : ∀ c ∈ f.comments, '=' ∉ c.name.toList := by
  unfold comments
  cases hcs : (f.blocks.find? (·.kind = commentKind)).bind (commentsOf? ·.body) with
  | none => exact fun c hc => absurd hc List.not_mem_nil
  | some cs =>
    obtain ⟨block, -, hblock⟩ := Option.bind_eq_some_iff.mp hcs
    simp only [commentsOf?, Option.bind_eq_bind, Option.bind_eq_some_iff] at hblock
    obtain ⟨⟨_, _⟩, -, ⟨_, _⟩, -, hread⟩ := hblock
    exact readComments?_names hread

theorem find?_withComments (f : FlacFile) (cs : List Comment) :
    (f.withComments cs).blocks.find? (·.kind = commentKind) = some (commentBlock "" cs) := by
  have hkind : (commentBlock "" cs).kind = commentKind := rfl
  unfold withComments
  by_cases hany : f.blocks.any (·.kind = commentKind)
  · obtain ⟨b, hb⟩ : ∃ b, f.blocks.find? (·.kind = commentKind) = some b :=
      Option.isSome_iff_exists.mp (by rwa [List.find?_isSome, ← List.any_eq_true])
    have hb' : b.kind = commentKind := by simpa using List.find?_some hb
    have hsame : ((fun b : FlacBlock => decide (b.kind = commentKind)) ∘
        fun b => if b.kind = commentKind then commentBlock "" cs else b) =
        fun b => decide (b.kind = commentKind) := by
      funext b
      by_cases hkind' : b.kind = commentKind <;> simp [hkind, hkind']
    simp only [hany, if_true, List.find?_map, hsame, hb, Option.map_some, hb']
  · have hnone : f.blocks.find? (·.kind = commentKind) = none := by
      simpa using hany
    simp [hany, List.find?_append, hnone, hkind]

/-- Keyed texts that were written are read. -/
theorem comments_withComments (hnames : ∀ c ∈ cs, '=' ∉ c.name.toList)
    (hfit : (f.withComments cs).fits = true) : (f.withComments cs).comments = cs := by
  have hfind := find?_withComments f cs
  have hblock : (commentBlock "" cs).body.length < Nat.pow 256 3 := by
    simpa using List.all_eq_true.mp hfit _ (List.mem_of_find?_eq_some hfind)
  rw [comments, hfind, Option.bind_some, commentsOf?_commentBlock hnames hblock, Option.getD_some]

/-- Blocks with the information on the sound in front. -/
structure Valid (f : FlacFile) : Prop where
  info : ∃ info rest, f.blocks = info :: rest ∧ info.kind = streamInfoKind ∧ info.body.length = 34
  kinds : ∀ b ∈ f.blocks, b.kind < 128

theorem readBlocks_kinds {fuel : Nat} {bytes sound : List UInt8}
    (h : readBlocks fuel bytes = some (bs, sound)) : ∀ b ∈ bs, b.kind < 128 := by
  induction fuel generalizing bytes bs with
  | zero => cases h
  | succ fuel ih =>
    unfold readBlocks at h
    split at h
    next head a b c rest =>
      split at h
      · cases h
      next body rest hbody =>
        have hkind : head.toNat % 128 < 128 := Nat.mod_lt _ (by decide)
        dsimp only at h
        split at h
        · cases h
          exact List.forall_mem_singleton.mpr hkind
        · obtain ⟨⟨blocks, sound⟩, hblocks, h⟩ := Option.map_eq_some_iff.mp h
          cases h
          exact List.forall_mem_cons.mpr ⟨hkind, ih hblocks⟩
    · cases h

/-- A block that was written is read, and nothing behind it if it is marked as the last one. -/
theorem readBlocks_block {b : FlacBlock} {head : UInt8} (hfit : b.body.length < Nat.pow 256 3)
    (hkind : head.toNat % 128 = b.kind) (fuel : Nat) (rest : List UInt8) :
    readBlocks (fuel + 1) (head :: (toBigEndian 3 b.body.length ++ b.body) ++ rest) =
      if 128 ≤ head.toNat then some ([b], rest)
      else (readBlocks fuel rest).map fun r => (b :: r.1, r.2) := by
  obtain ⟨x, y, z, hsize⟩ : ∃ x y z, toBigEndian 3 b.body.length = [x, y, z] :=
    List.length_eq_three.mp (length_toBigEndian 3 b.body.length)
  have hlength : bigEndian [x, y, z] = b.body.length := by rw [← hsize, bigEndian_toBigEndian hfit]
  simp only [hsize, List.cons_append, List.nil_append, readBlocks, hlength, split?_append, hkind]

/-- Blocks are read back up to the last one. -/
theorem readBlocks_writeBlocks (hne : bs ≠ []) (hkinds : ∀ b ∈ bs, b.kind < 128)
    (hfit : ∀ b ∈ bs, b.body.length < Nat.pow 256 3) {fuel : Nat} (hfuel : bs.length ≤ fuel)
    (sound : List UInt8) : readBlocks fuel (writeBlocks bs ++ sound) = some (bs, sound) := by
  fun_induction writeBlocks bs generalizing fuel with
  | case1 => exact absurd rfl hne
  | case2 b =>
    obtain ⟨fuel, rfl⟩ := Nat.exists_eq_add_one.mpr (Nat.lt_of_lt_of_le Nat.zero_lt_one hfuel)
    have hkind := hkinds b (.head _)
    have hlast : (UInt8.ofNat (128 + b.kind)).toNat = 128 + b.kind := by
      rw [UInt8.toNat_ofNat']
      omega
    rw [readBlocks_block (hfit b (.head _)) (by rw [hlast]; omega), if_pos (by omega)]
  | case3 b c bs ih =>
    obtain ⟨fuel, rfl⟩ := Nat.exists_eq_add_one.mpr (Nat.lt_of_lt_of_le (Nat.succ_pos _) hfuel)
    have hkind := hkinds b (.head _)
    have hmore : (UInt8.ofNat b.kind).toNat = b.kind := by
      rw [UInt8.toNat_ofNat']
      omega
    have hothers := ih (by simp) (fun d hd => hkinds d (.tail _ hd)) (fun d hd => hfit d (.tail _ hd))
      (Nat.le_of_succ_le_succ hfuel)
    rw [List.append_assoc, readBlocks_block (hfit b (.head _)) (by rw [hmore]; omega), if_neg (by omega),
      hothers]
    rfl

theorem length_le_writeBlocks (bs : List FlacBlock) : bs.length ≤ (writeBlocks bs).length := by
  fun_induction writeBlocks bs with
  | case1 => exact Nat.le_refl 0
  | case2 b => simp
  | case3 b c bs ih =>
    simp only [List.length_cons, List.length_append] at ih ⊢
    omega

theorem valid_of_decode? (h : decode? content = some f) : f.Valid := by
  unfold decode? at h
  dsimp only at h
  split at h
  next start rest hsplit =>
    split at h
    · split at h
      next block blocks sound hblocks =>
        split at h
        next hinfo =>
          cases h
          have hinfo : block.kind = streamInfoKind ∧ block.body.length = 34 := by simpa using hinfo
          exact ⟨⟨block, blocks, rfl, hinfo.1, hinfo.2⟩, readBlocks_kinds hblocks⟩
        · cases h
      · cases h
    · cases h
  · cases h

/-- A file is what its bytes say. -/
theorem decode?_encode (h : f.Valid) (hfit : f.fits = true) : decode? f.encode = some f := by
  obtain ⟨info, rest, hblocks, hkind, hlength⟩ := h.info
  have hbytes : f.encode.toList = mark ++ (writeBlocks f.blocks ++ f.sound) := by
    rw [Text.toList_byteArray, encode]
    simp
  have hmark : split? 4 (mark ++ (writeBlocks f.blocks ++ f.sound)) =
      some (mark, writeBlocks f.blocks ++ f.sound) := @split?_append 4 mark rfl _
  have hfuel : f.blocks.length ≤ (writeBlocks f.blocks ++ f.sound).length + 1 := by
    have := length_le_writeBlocks f.blocks
    rw [List.length_append]
    omega
  have hread := readBlocks_writeBlocks (by simp [hblocks]) h.kinds
    (fun b hb => by simpa using List.all_eq_true.mp hfit b hb) hfuel f.sound
  simp only [decode?, hbytes, hmark, if_true, hread]
  cases f
  cases hblocks
  simp [hkind, hlength]

/-- Other keyed texts leave the block in front, which is of another kind. -/
theorem Valid.blocks_withComments (h : f.Valid) (cs : List Comment) :
    ∃ info rest rest', f.blocks = info :: rest ∧ info.kind = streamInfoKind ∧ info.body.length = 34 ∧
      (f.withComments cs).blocks = info :: rest' ∧ ∀ b ∈ rest', b ∈ rest ∨ b = commentBlock "" cs := by
  obtain ⟨info, rest, hblocks, hkind, hlength⟩ := h.info
  unfold withComments
  by_cases hany : f.blocks.any (·.kind = commentKind)
  · have hinfo : info.kind ≠ commentKind := by
      rw [hkind]
      decide
    refine ⟨info, rest, rest.map fun b => if b.kind = commentKind then commentBlock "" cs else b,
      hblocks, hkind, hlength, ?_, fun b hb => ?_⟩
    · simp only [hany, if_true]
      rw [hblocks, List.map_cons, if_neg hinfo]
    · obtain ⟨c, hc, rfl⟩ := List.mem_map.mp hb
      split
      · exact .inr rfl
      · exact .inl hc
  · refine ⟨info, rest, rest ++ [commentBlock "" cs], hblocks, hkind, hlength, ?_, fun b hb => ?_⟩
    · rw [if_neg hany, hblocks]
      rfl
    · simpa using hb

theorem Valid.withComments (h : f.Valid) (cs : List Comment) : (f.withComments cs).Valid := by
  obtain ⟨info, rest, rest', hblocks, hkind, hlength, hnew, hrest⟩ := h.blocks_withComments cs
  have hkinds := h.kinds
  rw [hblocks] at hkinds
  refine ⟨⟨info, rest', hnew, hkind, hlength⟩, ?_⟩
  rw [hnew]
  refine List.forall_mem_cons.mpr ⟨hkinds info (.head _), fun b hb => ?_⟩
  obtain hb | rfl := hrest b hb
  · exact hkinds b (.tail _ hb)
  · exact (by decide : commentKind < 128)

theorem Valid.length_withComments (h : f.Valid) (cs : List Comment) :
    (f.withComments cs).length = f.length := by
  obtain ⟨info, rest, rest', hblocks, -, -, hnew, -⟩ := h.blocks_withComments cs
  rw [length, length, hblocks, hnew]

end MusicImport.FlacFile
