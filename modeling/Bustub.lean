import Bustub.Common.Config
import Bustub.Buffer.LruReplacer
import Bustub.Buffer.LruOrder
import Bustub.Buffer.BufferPoolManagerInstance
import Bustub.Buffer.FrameInvariant
import Bustub.Buffer.Wraparound
import Bustub.Buffer.FrameTable
import Bustub.Buffer.PageIds
import Bustub.Buffer.PageStore
import Bustub.Buffer.EvictionOrder
import Bustub.Concurrency.LockManager
import Bustub.Concurrency.WoundWait
import Bustub.Concurrency.TwoPhaseLocking
import Bustub.Concurrency.WaitChecks
import Bustub.Concurrency.Exclusion
import Bustub.Concurrency.Leftover
import Bustub.Storage.HashTableDirectoryPage
import Bustub.Storage.HashTableBucketPage
import Bustub.Container.ExtendibleHashTable
import Bustub.Container.DirectoryInvariant
import Bustub.Container.TableInvariant
import Bustub.Container.BufferPoolTable
import Bustub.Container.LatchBalance
import Bustub.Container.PinBalance
import Bustub.Container.SplitRewrite
import Bustub.Container.Progress
import Bustub.Container.Contents
import Bustub.Container.PageUse
import Bustub.Concurrency.Isolation
import Bustub.Concurrency.Pileup
