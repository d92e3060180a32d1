import DataSketches.Bloom.Run
import DataSketches.Bloom.Serialization
import DataSketches.Bloom.Sketch
import DataSketches.Common.Arithmetic
import DataSketches.Common.Codec
import DataSketches.Common.Float
import DataSketches.Common.Panic
import DataSketches.CountMin.Bounds
import DataSketches.CountMin.Reencoding
import DataSketches.CountMin.Run
import DataSketches.CountMin.Serialization
import DataSketches.CountMin.Sketch
import DataSketches.CountMin.Value
import DataSketches.Cpc.Compression
import DataSketches.Cpc.Compression.Buffers
import DataSketches.Cpc.Compression.RoundTrip
import DataSketches.Cpc.Compression.Tables
import DataSketches.Cpc.PairTable.Extraction
import DataSketches.Frequencies.Decoding
import DataSketches.Frequencies.Queries
import DataSketches.Frequencies.ReversePurgeItemHashMap
import DataSketches.Frequencies.ReversePurgeItemHashMap.FiniteMap
import DataSketches.Frequencies.ReversePurgeItemHashMap.Invariant
import DataSketches.Frequencies.ReversePurgeItemHashMap.Purge
import DataSketches.Frequencies.Run
import DataSketches.Frequencies.Serialization
import DataSketches.Frequencies.Sketch
import DataSketches.Hash.Murmur
import DataSketches.Hash.Streaming
import DataSketches.Hash.XxHash
import DataSketches.Lib.BitArray
import DataSketches.Lib.BitFields
import DataSketches.Lib.BitStream
import DataSketches.Lib.Blocks
import DataSketches.Lib.ByteReader
import DataSketches.Lib.Comparator
import DataSketches.Lib.Counters
import DataSketches.Lib.Differences
import DataSketches.Lib.LinearProbing
import DataSketches.Lib.LittleEndian
import DataSketches.Lib.Odds
import DataSketches.Lib.OpenAddressing
import DataSketches.Lib.Runs
import DataSketches.Lib.Selection
import DataSketches.Lib.StableSort
import DataSketches.Req.Bound
import DataSketches.Req.Compactor
import DataSketches.Req.Compactor.Invariant
import DataSketches.Req.Compress
import DataSketches.Req.Consistency
import DataSketches.Req.Decoding
import DataSketches.Req.Levels
import DataSketches.Req.Operations
import DataSketches.Req.RoundTrip
import DataSketches.Req.Run
import DataSketches.Req.Serialization
import DataSketches.Req.Sketch
import DataSketches.Req.Value
import DataSketches.TDigest.Bounded
import DataSketches.TDigest.Centroid
import DataSketches.TDigest.Compression
import DataSketches.TDigest.Consultation
import DataSketches.TDigest.Continuation
import DataSketches.TDigest.Distribution
import DataSketches.TDigest.Exact
import DataSketches.TDigest.Merging
import DataSketches.TDigest.Quantile
import DataSketches.TDigest.Queries
import DataSketches.TDigest.Rank
import DataSketches.TDigest.Reload
import DataSketches.TDigest.Run
import DataSketches.TDigest.Serialization
import DataSketches.TDigest.Shape
import DataSketches.TDigest.Sketch
import DataSketches.TDigest.Steps
import DataSketches.TDigest.Tails
import DataSketches.ThetaFamily.ANotB
import DataSketches.ThetaFamily.BinomialBounds
import DataSketches.ThetaFamily.EntrySketch
import DataSketches.ThetaFamily.HashTable
import DataSketches.ThetaFamily.HashTable.Invariant
import DataSketches.ThetaFamily.HashTable.Safety
import DataSketches.ThetaFamily.Intersection
import DataSketches.ThetaFamily.IntersectionErrors
import DataSketches.ThetaFamily.JaccardSimilarity
import DataSketches.ThetaFamily.Portable
import DataSketches.ThetaFamily.Reachable
import DataSketches.ThetaFamily.Theta.BitPack
import DataSketches.ThetaFamily.Theta.BitPackAgreement
import DataSketches.ThetaFamily.Theta.BitPackTables
import DataSketches.ThetaFamily.Theta.Compression
import DataSketches.ThetaFamily.Theta.HashTable
import DataSketches.ThetaFamily.Theta.Serialization
import DataSketches.ThetaFamily.Theta.Sketch
import DataSketches.ThetaFamily.Theta.Validity
import DataSketches.ThetaFamily.Tuple.HashTable
import DataSketches.ThetaFamily.Tuple.Serialization
import DataSketches.ThetaFamily.Tuple.Sketch
import DataSketches.ThetaFamily.Tuple.Summaries
import DataSketches.ThetaFamily.Tuple.Validity
import DataSketches.ThetaFamily.Union
