import Thumbnails.Config.Basic

/-!
# Drafts of settings

A draft holds the settings that a text gives. What it does not give is taken from the standard
settings.
-/

namespace Thumbnails

/-- The settings that were given. -/
structure ConfigDraft where
  cacheDirectory : Option Path
  maxThumbnailSize : Option Size
  maxCachedPixmaps : Option UInt64
  expirationThreshold : Option UInt64
  maxAllocBytes : Option UInt64
  deriving DecidableEq, Repr

structure SizeDraft where
  width : Option UInt32
  height : Option UInt32
  deriving DecidableEq, Repr

namespace ConfigDraft

def empty : ConfigDraft :=
  ⟨none, none, none, none, none⟩

def apply (draft : ConfigDraft) : Config :=
  { cacheDirectory := draft.cacheDirectory.getD Config.standard.cacheDirectory
    maxThumbnailSize := draft.maxThumbnailSize.getD Config.standard.maxThumbnailSize
    maxCachedPixmaps := draft.maxCachedPixmaps.getD Config.standard.maxCachedPixmaps
    expirationThreshold := draft.expirationThreshold.getD Config.standard.expirationThreshold
    maxAllocBytes := draft.maxAllocBytes.getD Config.standard.maxAllocBytes }

end ConfigDraft

namespace SizeDraft

def empty : SizeDraft :=
  ⟨none, none⟩

def size? (draft : SizeDraft) : Option Size :=
  match draft.width, draft.height with
  | some width, some height => some ⟨width, height⟩
  | _, _ => none

end SizeDraft

end Thumbnails
