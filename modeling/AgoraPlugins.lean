import AgoraPlugins.Kafka.SinkTransactions
import AgoraPlugins.Kafka.SinkDurability
import AgoraPlugins.Dict
import AgoraPlugins.Kafka.Cursor
import AgoraPlugins.Kafka.Operator
import AgoraPlugins.Kafka.Poison
import AgoraPlugins.Kafka.Source
import AgoraPlugins.Kafka.SourceSteps
import AgoraPlugins.Kafka.StreamTurn
import AgoraPlugins.Kafka.PauseResume
import AgoraPlugins.Kafka.Consumption
import AgoraPlugins.Kafka.CommitBookkeeping
import AgoraPlugins.Kafka.Isolation
import AgoraPlugins.Kafka.Resumption
import AgoraPlugins.Kafka.CheckpointChaining
import AgoraPlugins.Kafka.Runtime
import AgoraPlugins.Kafka.TransactionalDelivery
import AgoraPlugins.Postgres.Sink
import AgoraPlugins.Kafka.PostgresDelivery
import AgoraPlugins.Postgres.ConcurrentSink
import AgoraPlugins.Postgres.Upsert
import AgoraPlugins.Postgres.WritePlan
import AgoraPlugins.Postgres.StrictUpsert
import AgoraPlugins.FirstOccurrences
import AgoraPlugins.Postgres.AlignedUpsert
import AgoraPlugins.Distributed.Leases
import AgoraPlugins.Distributed.Redlock
import AgoraPlugins.Distributed.MutualExclusion
import AgoraPlugins.Json
import AgoraPlugins.Dlq.Policy
import AgoraPlugins.Redis.DlqPayloads
import AgoraPlugins.Redis.DlqSink
import AgoraPlugins.Dlq.ReplayAccounting
import AgoraPlugins.Redis.DlqIndex
import AgoraPlugins.Postgres.Dlq
import AgoraPlugins.Dlq.AttemptCounts
import AgoraPlugins.Redis.ListSink
import AgoraPlugins.Redis.StateBackend
import AgoraPlugins.Redis.StreamAcks
import AgoraPlugins.Redis.StreamCheckpoint
import AgoraPlugins.Redis.StreamDelivery
import AgoraPlugins.Distributed.Cleanup
import AgoraPlugins.Distributed.Coordinator
import AgoraPlugins.Distributed.LocalLeases
import AgoraPlugins.Distributed.LeaseLost
import AgoraPlugins.Distributed.ZombieLeases
import AgoraPlugins.Distributed.FencingKeys
import AgoraPlugins.Distributed.FencingTokens
import AgoraPlugins.Redis.CompareAndSet
import AgoraPlugins.Glob
import AgoraPlugins.Redis.StatePrefix
import AgoraPlugins.Postgres.DlqRoundTrip
import AgoraPlugins.Redis.DlqRoundTrip
import AgoraPlugins.Kafka.DlqPayloads
import AgoraPlugins.Dlq.Redaction
import AgoraPlugins.Kafka.DlqCompaction
import AgoraPlugins.Kafka.DlqRoundTrip
import AgoraPlugins.Postgres.DlqWrites
import AgoraPlugins.Dlq.RedactionCoverage
import AgoraPlugins.Kafka.PoisonPayload
import AgoraPlugins.Kafka.CommitSafety
import AgoraPlugins.Kafka.CommitCoverage
import AgoraPlugins.Kafka.PoisonDurability
import AgoraPlugins.Kafka.DeliveryOrder
import AgoraPlugins.Kafka.CommitCompleteness
import AgoraPlugins.Kafka.OperatorSeek
import AgoraPlugins.PostgresLexer
import AgoraPlugins.Postgres.Identifiers
import AgoraPlugins.Postgres.SchemaAdapter
import AgoraPlugins.Postgres.SchemaEvolution
import AgoraPlugins.Postgres.FlushTransactions
import AgoraPlugins.Postgres.DeliverIsolation
import AgoraPlugins.Postgres.WritePool
import AgoraPlugins.Kafka.SchemaRegistryWire
import AgoraPlugins.S3.Sink
import AgoraPlugins.Postgres.SourceStream
import AgoraPlugins.S3.Source
import AgoraPlugins.BigQuery.SinkConcurrency
import AgoraPlugins.GreedyRuns
import AgoraPlugins.BigQuery.StorageWriteFlush
import AgoraPlugins.BigQuery.RequestSize
import AgoraPlugins.BigQuery.SourcePump
import AgoraPlugins.BigQuery.SourceResume
import AgoraPlugins.Redis.EmbeddingStore
import AgoraPlugins.Redis.EmbeddingRetention
import AgoraPlugins.Kafka.ProtoSchema
import AgoraPlugins.Postgres.FlushHygiene
import AgoraPlugins.Postgres.InsertModes
import AgoraPlugins.Kafka.PoisonLossless
import AgoraPlugins.Kafka.DlqStorageKeys
import AgoraPlugins.Postgres.StatementChunks
import AgoraPlugins.Postgres.TargetColumns
import AgoraPlugins.JsonLimits
import AgoraPlugins.Distributed.StoredData
import AgoraPlugins.Distributed.LeaseValidation
import AgoraPlugins.Distributed.WorkerRegistry
import AgoraPlugins.Distributed.Decoding
import AgoraPlugins.S3.ObjectLayout
import AgoraPlugins.Kafka.PoisonAccounting
import AgoraPlugins.Urls
import AgoraPlugins.ConnectionUrl
import AgoraPlugins.MaskedUrl
import AgoraPlugins.Redaction
import AgoraPlugins.CanonicalJson
import AgoraPlugins.SourceIdentity
import AgoraPlugins.Postgres.DsnRedaction
import AgoraPlugins.Redis.ReclaimFairness
import AgoraPlugins.Redis.ReclaimPass
import AgoraPlugins.Redis.SetSink
import AgoraPlugins.ClusterSlots
import AgoraPlugins.Redis.MarkerSlots
import AgoraPlugins.Redis.DlqKeyspace
import AgoraPlugins.Redis.DlqScan
import AgoraPlugins.LruOrder
import AgoraPlugins.Kafka.SchemaRegistryCache
import AgoraPlugins.BigQuery.TimestampCoercion
import AgoraPlugins.Postgres.DsnPattern
import AgoraPlugins.Postgres.KeywordDsn
import AgoraPlugins.Postgres.DsnIdentity
import AgoraPlugins.FirstElements
import AgoraPlugins.Cron.MissedRuns
import AgoraPlugins.Anthropic.BatchResults
import AgoraPlugins.Anthropic.StreamText
import AgoraPlugins.Postgres.CheckpointPresence
import AgoraPlugins.GoogleSqlLexer
import AgoraPlugins.BigQuery.QueryText
import AgoraPlugins.PartitionedLog
import AgoraPlugins.Kafka.DlqScan
import AgoraPlugins.RepeatedOps
import AgoraPlugins.Postgres.RedisDelivery
