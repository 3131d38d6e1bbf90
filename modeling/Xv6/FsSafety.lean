import Xv6.RootImage

/-! What sequences of complete file system operations keep: every block has one owner,
and files have no holes. -/

namespace Xv6

open Kern

section

variable {sb : Superblock} {disk : Disk} {s : Fs} {held : List Nat}

/-- Block ownership. After any sequence of operations every block address that an
allocated inode stores, directly or in its indirect block, is stored once and lies
in the data region; the bitmap marks the metadata blocks and these addresses and
nothing else; and no operation frees a free block. -/
theorem block_ownership (hw : WellFormed sb disk) (h : FsReach (mount sb disk) held s) :
    BlocksOwned s ∧ ∀ op : FsOp, op.Legal s held →
      (op.prog held).run s ≠ some (.error "freeing free block") := by
  have hwork := h.working hw
  refine ⟨hwork.inv.toDiskInv.blocksOwned, fun op hl hr => ?_⟩
  exact ((FsOp.working hwork hl).sat.of_panic hr).1 rfl

theorem block_ownership_oneInode : WellFormed mkfsSb rootImage ∧ ∃ ip s,
    FsReach (mount mkfsSb rootImage) [ip] s ∧ BlocksOwned s := by
  obtain ⟨ip, s, hr⟩ := rootImage_ialloc
  exact ⟨rootImage_wellFormed, ip, s, hr, (block_ownership rootImage_wellFormed hr).1⟩

/-- No holes. After any sequence of operations every block below the size of an
allocated inode is mapped; a read outside a transaction changes nothing, and no
operation asks `bmap` for a block out of range or writes outside a transaction. -/
theorem no_holes_below_size (hw : WellFormed sb disk) (h : FsReach (mount sb disk) held s) :
    NoHoles s ∧ s.outstanding = 0 ∧
      (∀ p ip dst off n, ip ∈ held → (s.dinode (s.itable ip).inum).type ≠ 0 →
        ∃ r, readi ip dst off n (s.locked p ip) = .ok (r, s.locked p ip)) ∧
      ∀ op : FsOp, op.Legal s held →
        (op.prog held).run s ≠ some (.error "bmap: out of range") ∧
        (op.prog held).run s ≠ some (.error "log_write outside of trans") := by
  have hwork := h.working hw
  refine ⟨hwork.inv.solid, hwork.txn, fun p ip dst off n hip ht =>
    readi_returns hwork hip ht dst off n, fun op hl => ⟨fun hr => ?_, fun hr => ?_⟩⟩
  · exact ((FsOp.working hwork hl).sat.of_panic hr).2.1 rfl
  · exact ((FsOp.working hwork hl).sat.of_panic hr).2.2 rfl

theorem no_holes_below_size_oneInode : WellFormed mkfsSb rootImage ∧ ∃ ip s,
    FsReach (mount mkfsSb rootImage) [ip] s ∧ NoHoles s := by
  obtain ⟨ip, s, hr⟩ := rootImage_ialloc
  exact ⟨rootImage_wellFormed, ip, s, hr, (no_holes_below_size rootImage_wellFormed hr).1⟩

end

end Xv6
