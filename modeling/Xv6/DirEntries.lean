import Xv6.InodeTable
import Xv6.SysfileModel

/-! What the loops over directory entries find and what `dirlink` and `unlink` write. -/

namespace Xv6

open Kern List

section

variable {s s' : Fs} {dp : Nat} {E : String → Prop} {hit : Dirent → Bool} {msg : String}

variable {start size off : Nat}

lemma mem_dirOffs : off ∈ dirOffs start size ↔ ∃ k, off = start + 16 * k ∧ off < size := by
  simp only [dirOffs, mem_map, mem_range]
  constructor
  · rintro ⟨k, hk, rfl⟩
    exact ⟨k, rfl, by omega⟩
  · rintro ⟨k, rfl, hlt⟩
    exact ⟨k, by omega, rfl⟩

def Scanned (disk : Disk) (d : Dinode) (hit : Dirent → Bool) (offs : List Nat) :
    Option (Nat × Dirent) → Prop
  | none => ∀ off ∈ offs, off + 16 ≤ d.size ∧ hit (direntAt disk d off) = false
  | some (off, de) => off ∈ offs ∧ off + 16 ≤ d.size ∧ de = direntAt disk d off ∧ hit de = true ∧
      ∃ before after, offs = before ++ off :: after ∧
        ∀ x ∈ before, x + 16 ≤ d.size ∧ hit (direntAt disk d x) = false

lemma readLen_dirent (h : off < 2 ^ 31) :
    readLen size (.ofNat off) 16 = if size < off then 0 else min 16 (size - off) := by
  have h16 : (16 : UInt32).toNat = 16 := rfl
  have hoff : (UInt32.ofNat off).toNat = off := by
    rw [UInt32.toNat_ofNat']
    omega
  have hadd : ¬ UInt32.ofNat off + 16 < UInt32.ofNat off := by
    rw [UInt32.lt_iff_toNat_lt, UInt32.toNat_add, hoff, h16]
    omega
  rw [readLen, hoff, h16]
  simp only [hadd, or_false, gt_iff_lt]

lemma dirScan_sat (hs : Solid s.disk (s.itable dp).din) {offs : List Nat}
    (hlt : ∀ off ∈ offs, off < 2 ^ 31)
    (hE : E msg ∨ ∀ off ∈ offs, off + 16 ≤ (s.itable dp).din.size) :
    Sat (dirScan dp msg hit offs) s E fun r s' => s' = s ∧
      Scanned s.disk (s.itable dp).din hit offs r := by
  induction offs with
  | nil =>
    rw [dirScan, sat_pure]
    exact ⟨rfl, fun _ h => absurd h not_mem_nil⟩
  | cons off offs ih =>
    have hoff := hlt off mem_cons_self
    have htoNat : (UInt32.ofNat off).toNat = off := by
      rw [UInt32.toNat_ofNat']
      omega
    rw [dirScan]
    refine (readi_sat hs kernelDst _ _).bind ?_
    rintro ⟨r, data⟩ s1 ⟨rfl, hr⟩
    have hread := hr rfl
    rw [readLen_dirent hoff, htoNat, Prod.mk.injEq] at hread
    obtain ⟨rfl, rfl⟩ := hread
    dsimp only
    by_cases hend : off + 16 ≤ (s1.itable dp).din.size
    · have hlen :
        (if (s1.itable dp).din.size < off then
          0 else min 16 ((s1.itable dp).din.size - off)) = 16 := by
        rw [if_neg (by omega)]
        omega
      rw [hlen, if_neg (by decide)]
      show Sat (if hit (direntAt s1.disk (s1.itable dp).din off) = true then _ else _) _ _ _
      by_cases hh : hit (direntAt s1.disk (s1.itable dp).din off) = true
      · rw [if_pos hh, sat_pure]
        exact ⟨rfl, mem_cons_self, hend, rfl, hh, [], offs, rfl, fun _ h => absurd h not_mem_nil⟩
      · rw [if_neg hh]
        have hmiss : hit (direntAt s1.disk (s1.itable dp).din off) = false := by simpa using hh
        refine (ih (fun x hx => hlt x (mem_cons_of_mem _ hx))
          (hE.imp_right fun h x hx => h x (mem_cons_of_mem _ hx))).imp ?_
        rintro r s' ⟨rfl, hsc⟩
        refine ⟨rfl, ?_⟩
        cases r with
        | none =>
          intro x hx
          rcases mem_cons.mp hx with rfl | hx
          · exact ⟨hend, hmiss⟩
          · exact hsc x hx
        | some q =>
          obtain ⟨hmem, hle, hde, hq, before, after, hsplit, hbefore⟩ := hsc
          refine ⟨mem_cons_of_mem _ hmem, hle, hde, hq, off :: before, after, by rw [hsplit]; rfl, ?_⟩
          intro x hx
          rcases mem_cons.mp hx with rfl | hx
          · exact ⟨hend, hmiss⟩
          · exact hbefore x hx
    · have hne : ((if (s1.itable dp).din.size < off then 0 else
          min 16 ((s1.itable dp).din.size - off) : Nat) : Int) ≠ 16 := by
        split <;> omega
      rw [if_pos hne, sat_panic]
      exact hE.resolve_right fun h => hend (h off mem_cons_self)

structure LookedUp (dp : Nat) (name : List UInt8) (s s' : Fs) (r : Option (Nat × Nat)) : Prop where
  type : (s.itable dp).din.type = tDir
  scan : ∃ hit, Scanned s.disk (s.itable dp).din (fun de => de.inum ≠ 0 && namecmp name de.name = 0)
    (dirOffs 0 (s.itable dp).din.size) hit ∧
    match hit, r with
    | none, none => s' = s
    | some (off, de), some (ip, off') => off' = off ∧ Got de.inum s s' ip
    | _, _ => False

lemma dirOffs_lt {d : Dinode} {disk : Disk} (hs : Solid disk d) :
    ∀ off ∈ dirOffs start d.size, off < 2 ^ 31 := by
  intro off hoff
  obtain ⟨k, -, hlt⟩ := mem_dirOffs.mp hoff
  have hle := hs.size_le
  simp only [maxfile, ndirect, nindirect, bsize] at hle
  omega

lemma dirOffs_end {d : Dinode} (h : d.size % 16 = 0) (h' : start % 16 = 0) :
    ∀ off ∈ dirOffs start d.size, off + 16 ≤ d.size := by
  intro off hoff
  obtain ⟨k, rfl, hlt⟩ := mem_dirOffs.mp hoff
  omega

lemma dirlookup_sat (hi : FsInv s) (hip : Loaded dp s) {name : List UInt8}
    (htype : E "dirlookup not DIR" ∨ (s.itable dp).din.type = tDir)
    (hread : E "dirlookup read" ∨ (s.itable dp).din.size % 16 = 0)
    (hE : E "iget: no inodes" ∨ ∃ x < ninode, (s.itable x).ref = 0) :
    Sat (dirlookup dp name) s E fun r s' => FsInv s' ∧ LookedUp dp name s s' r := by
  have hs := hi.solid_of_loaded hip
  have he := hi.coherent dp hip.lt hip.ref hip.valid
  unfold dirlookup
  rw [sat_bind, sat_getState]
  by_cases ht : (s.itable dp).din.type ≠ tDir
  · rw [if_pos ht, sat_panic]
    exact htype.resolve_right ht
  · rw [if_neg ht]
    have ht' : (s.itable dp).din.type = tDir := by simpa using ht
    refine (dirScan_sat hs (dirOffs_lt hs) (hread.imp_right fun h => dirOffs_end h rfl)).bind ?_
    rintro hit s1 ⟨rfl, hsc⟩
    cases hit with
    | none =>
      rw [sat_pure]
      exact ⟨hi, ht', none, hsc, rfl⟩
    | some q =>
      obtain ⟨off, de⟩ := q
      have hnum : de.inum < s1.sb.ninodes := by
        obtain ⟨hmem, hle, rfl, -⟩ := hsc
        obtain ⟨k, hk, -⟩ := mem_dirOffs.mp hmem
        rw [Nat.zero_add] at hk
        subst hk
        rw [he.1] at ht' hle ⊢
        exact hi.dirs _ (hi.inum dp hip.lt hip.ref) ht' k hle
      refine (iget_sat hE).bind ?_
      rintro ip s' hgot
      rw [sat_pure]
      exact ⟨hi.got hnum hgot, ht', some (off, de), hsc, rfl, hgot⟩

end

section

variable {s s' : Fs} {dp ip off : Nat} {E : Panics}

structure DirWrote (dp off : Nat) (new : Option Dirent) (s s' : Fs) : Prop where
  saved : Saved dp s s'
  type : (s'.itable dp).din.type = (s.itable dp).din.type
  nlink : (s'.itable dp).din.nlink = (s.itable dp).din.nlink
  size : (s'.itable dp).din.size =
    if new = none then (s.itable dp).din.size else max (s.itable dp).din.size (off + 16)
  entry : ∀ k, direntAt s'.disk (s'.itable dp).din (16 * k) =
    if 16 * k = off then new.getD (direntAt s.disk (s.itable dp).din (16 * k))
    else direntAt s.disk (s.itable dp).din (16 * k)

lemma Saved.refl (hi : FsInv s) (hip : Loaded ip s) : Saved ip s s :=
  ⟨rfl, rfl, fun _ _ => rfl, rfl, (hi.coherent ip hip.lt hip.ref hip.valid).1.symm,
    fun _ _ _ => rfl, fun _ _ _ _ _ => rfl⟩

lemma DirWrote.refl (hi : FsInv s) (hip : Loaded dp s) : DirWrote dp off none s s :=
  ⟨Saved.refl hi hip, rfl, rfl, rfl, fun k => by simp⟩

variable {data : List UInt8}

lemma fileSlice_kernelSrc {disk : Disk} {d : Dinode} {n : Nat} (hlen : data.length = n)
    (h : ∀ x, off ≤ x → x < off + n → fileByte disk d x = (kernelSrc data (x - off)).getD 0) :
    fileSlice disk d off n = data := by
  unfold fileSlice
  apply ext_getElem
  · simp [hlen]
  · intro i hi1 hi2
    simp only [getElem_map, getElem_range]
    rw [h (off + i) (by omega) (by omega), Nat.add_sub_cancel_left, kernelSrc, Option.getD_some,
      getD_eq_getElem _ _ hi2]

lemma kernelSrc_ne_none (data : List UInt8) (j : Nat) : kernelSrc data j ≠ none := Option.some_ne_none _

lemma DirWrote.of_wrote {w : Nat} (hlen : data.length = 16) (hoff : off % 16 = 0)
    (h : WroteFile dp (kernelSrc data) off 16 s s' w) (hw : w = 0 ∨ w = 16) :
    DirWrote dp off (if w = 16 then some (getDirent data) else none) s s' := by
  obtain ⟨w', -, hw', hbytes⟩ := h.bytes
  have hww := hw' (kernelSrc_ne_none data)
  subst hww
  have hsize := h.size
  have hoffle := h.off_le
  rcases hw with rfl | rfl
  · have hbyte : ∀ x, fileByte s'.disk (s'.itable dp).din x = fileByte s.disk (s.itable dp).din x := by
      intro x
      rw [hbytes x, if_neg (by omega)]
    refine ⟨h.saved, h.type, h.nlink, ?_, fun k => ?_⟩
    · rw [hsize, if_pos (by simp)]
      omega
    · rw [direntAt_congr fun x _ _ => hbyte x]
      simp
  · refine ⟨h.saved, h.type, h.nlink, ?_, fun k => ?_⟩
    · rw [hsize, if_neg (by simp)]
    · by_cases hk : 16 * k = off
      · rw [if_pos hk, if_pos rfl, Option.getD_some, direntAt, hk]
        congr 1
        refine fileSlice_kernelSrc hlen fun x h1 h2 => ?_
        rw [hbytes x, if_pos ⟨h1, h2⟩]
      · rw [if_neg hk]
        refine direntAt_congr fun x h1 h2 => ?_
        rw [hbytes x, if_neg (by omega)]

lemma DirWrote.dirOk {new : Option Dirent} (hi : FsInv s) (hip : Loaded dp s)
    (h : DirWrote dp off new s s') (hoff : off % 16 = 0)
    (hle : new = none ∨ off ≤ (s.itable dp).din.size) (hnum : ∀ de ∈ new, de.inum < s.sb.ninodes) :
    DirOk s'.sb s'.disk (s'.itable dp).din := by
  intro ht k hk
  have hold : 16 * k + 16 ≤ (s.itable dp).din.size →
      (direntAt s.disk (s.itable dp).din (16 * k)).inum < s.sb.ninodes := by
    intro hk'
    obtain ⟨hd, -⟩ := hi.coherent dp hip.lt hip.ref hip.valid
    rw [h.type] at ht
    rw [hd] at ht hk' ⊢
    exact hi.dirs _ (hi.inum dp hip.lt hip.ref) ht k hk'
  have hsize := h.size
  rw [h.entry, h.saved.sb]
  cases new with
  | none =>
    simp only [Option.getD_none, ite_self]
    exact hold (by simp at hsize; omega)
  | some de =>
    have hle' := hle.resolve_left (by simp)
    rw [if_neg (by simp)] at hsize
    by_cases hk' : 16 * k = off
    · rw [if_pos hk']
      exact hnum de rfl
    · rw [if_neg hk']
      exact hold (by omega)

lemma writeDirent_sat (hi : FsInv s) (hip : Loaded dp s) (htx : 1 ≤ s.outstanding)
    (hlen : data.length = 16) (hoff : off % 16 = 0) (hlt : off < 2 ^ 31)
    (hnum : (getDirent data).inum < s.sb.ninodes) :
    Sat (writei dp (kernelSrc data) (.ofNat off) 16) s E fun r s' => FsInv s' ∧
      DirWrote dp off (if r = 16 then some (getDirent data) else none) s s' ∧
      (off + 16 ≤ (s.itable dp).din.size → r = 16) ∧
      (r = 16 → off ≤ (s.itable dp).din.size) := by
  have hs := hi.solid_of_loaded hip
  have hsize := hs.size_le
  have h16 : (16 : UInt32).toNat = 16 := rfl
  have htoNat : (UInt32.ofNat off).toNat = off := by
    rw [UInt32.toNat_ofNat']
    omega
  have hadd : ¬ UInt32.ofNat off + 16 < UInt32.ofNat off := by
    rw [UInt32.lt_iff_toNat_lt, UInt32.toNat_add, htoNat, h16]
    omega
  have hmax : maxfile * bsize = 274432 := rfl
  rw [hmax] at hsize
  refine (writei_sat hi hip htx _ _).imp ?_
  rintro r s' (⟨rfl, rfl, hbad⟩ | ⟨w, rfl, hw⟩)
  · rw [htoNat, UInt32.toNat_add, htoNat, h16, hmax] at hbad
    have hcase := hbad.imp_right fun h => h.resolve_left hadd
    exact ⟨hi, DirWrote.refl hi hip, fun h => by omega, fun h => by omega⟩
  · rw [htoNat, h16] at hw
    have hone : off % bsize + 16 ≤ bsize := by
      simp only [bsize]
      omega
    have hcase := hw.chunk hone
    have hwrote := DirWrote.of_wrote hlen hoff hw hcase
    have hcast : ((w : Int) = 16) ↔ w = 16 := by omega
    simp only [hcast]
    have hi' := hi.wroteFile hip hw (hwrote.dirOk hi hip hoff (.inr hw.off_le) ?_)
    · refine ⟨hi', hwrote, fun h => ?_, fun _ => hw.off_le⟩
      exact hw.done (kernelSrc_ne_none data) fun x h1 h2 => hs.at (by omega)
    · intro de hde
      split at hde
      · cases hde
        exact hnum
      · cases hde

lemma strncpy_length (t : List UInt8) (n : Nat) : (strncpy t n).length = n := by
  simp only [strncpy, length_append, length_take, length_replicate]
  omega

lemma putDirent_length (inum : Nat) (name : List UInt8) : (putDirent inum name).length = 16 := by
  simp [putDirent, strncpy_length, dirsiz]

lemma getDirent_putDirent {inum : Nat} (h : inum < 2 ^ 16) (name : List UInt8) :
    getDirent (putDirent inum name) = ⟨inum, strncpy name dirsiz⟩ := by
  have hlen : (Bytes.leBytes 2 inum).length = 2 := Bytes.leBytes_length 2 inum
  rw [getDirent, putDirent, take_left' hlen, drop_left' hlen, Bytes.leNat_leBytes]
  rw [Nat.mod_eq_of_lt (by norm_num; omega)]

structure FreeSlot (disk : Disk) (d : Dinode) (off : Nat) : Prop where
  aligned : off % 16 = 0
  le : off ≤ d.size
  empty : off + 16 ≤ d.size → (direntAt disk d off).inum = 0
  last : d.size < off + 16 → off = d.size
  first : ∀ k, 16 * k < off → (direntAt disk d (16 * k)).inum ≠ 0

lemma FreeSlot.of_scanned {disk : Disk} {d : Dinode} {r : Option (Nat × Dirent)}
    (h : Scanned disk d (fun de => de.inum = 0) (dirOffs 0 d.size) r) : FreeSlot disk d
    (linkOff d.size r) := by
  cases r with
  | none =>
    have hall : ∀ k, 16 * k < d.size → 16 * k + 16 ≤ d.size ∧ (direntAt disk d (16 * k)).inum ≠ 0 := by
      intro k hk
      have hmem := h (16 * k) (mem_dirOffs.mpr ⟨k, (Nat.zero_add _).symm, hk⟩)
      simpa using hmem
    have hround : 16 * ((d.size + 15) / 16) = d.size := by
      rcases Nat.eq_zero_or_pos d.size with h0 | hpos
      · omega
      · have hlast := (hall ((d.size - 1) / 16) (by omega)).1
        omega
    rw [linkOff, hround]
    exact ⟨by omega, Nat.le_refl _, fun hle => by omega, fun _ => rfl, fun k hk => (hall k hk).2⟩
  | some q =>
    obtain ⟨hmem, hle, hde, hhit, before, after, hsplit, hbefore⟩ := h
    obtain ⟨k, hk, hlt⟩ := mem_dirOffs.mp hmem
    show FreeSlot disk d q.1
    refine ⟨by omega, by omega, fun _ => ?_, fun hlt' => by omega, fun j hj => ?_⟩
    · rw [← hde]
      simpa using hhit
    · have hjmem : 16 * j ∈ dirOffs 0 d.size := mem_dirOffs.mpr ⟨j, (Nat.zero_add _).symm, by omega⟩
      have hsorted : (dirOffs 0 d.size).Pairwise (· < ·) := by
        unfold dirOffs
        refine pairwise_map.mpr (pairwise_lt_range.imp fun hab => ?_)
        omega
      rw [hsplit] at hjmem hsorted
      rcases mem_append.mp hjmem with hb | ha
      · simpa using (hbefore _ hb).2
      · rcases mem_cons.mp ha with he | ha
        · omega
        · have hgt := (pairwise_cons.mp (pairwise_append.mp hsorted).2.1).1 _ ha
          omega

lemma getDirent_zero : getDirent (List.replicate 16 0) = ⟨0, List.replicate 14 0⟩ := rfl

lemma unlinkEntry_sat (hi : FsInv s) (hdp : Loaded dp s) (htx : 1 ≤ s.outstanding)
    (hoff : off % 16 = 0) (hlt : off < 2 ^ 31) (hE : E "unlink: writei") :
    Sat (unlinkEntry dp ip off) s E fun _ s' => FsInv s' ∧ SameRefs s s' := by
  unfold unlinkEntry
  have hpos : 0 < s.sb.ninodes := Nat.lt_of_lt_of_le (by decide) (Nat.le_of_lt hi.layout.root_lt)
  refine (writeDirent_sat hi hdp htx length_replicate hoff hlt
    (by rw [getDirent_zero]; exact hpos)).bind ?_
  rintro r s1 ⟨hi₁, hwrote, -⟩
  split
  · rwa [sat_panic]
  · rw [sat_bind, sat_getState]
    split
    · have href := hwrote.saved.ref dp
      have hdp1 : Loaded dp s1 :=
        ⟨hdp.lt, by rw [href.1]; exact hdp.ref, by rw [href.2.2.1]; exact hdp.valid⟩
      refine (updateDin_sat hi₁ hdp1 (by rw [hwrote.saved.outstanding]; exact htx)
        (Dinode.sameFile_decNlink _)).imp ?_
      rintro _ s' ⟨hi', hsaved, -⟩
      exact ⟨hi', hwrote.saved.sameRefs.trans hsaved.sameRefs⟩
    · rw [sat_pure]
      exact ⟨hi₁, hwrote.saved.sameRefs⟩

end

end Xv6
